import CallBridge.Diagnostic.Level
import CallBridge.Interleaving

/-!
# Settings under concurrency

A setting is looked up in the environment once and then kept as a byte that all callers share. The
first caller marks the byte, looks the variable up and stores what it read; one that comes while the
byte is marked takes the default instead of waiting.
-/

namespace CallBridge.Diagnostic

/-- A setting: the name of the variable it comes from, the byte of a text found there, and the
byte without one. -/
structure Setting where
  name : String
  read : String → UInt8
  standard : UInt8

/-- The threshold. -/
def Level.setting : Setting :=
  ⟨"FFIBENCH_LOG", fun s => (Level.ofText s).toByte, Level.standard.toByte⟩

/-- The reaction to a failure that cannot be reported. -/
def OnFatal.setting : Setting :=
  ⟨"FFIBENCH_ON_FATAL", fun s => (OnFatal.ofText s).toByte, OnFatal.standard.toByte⟩

namespace Setting

/-- The byte of a setting that was not looked up yet. -/
def unresolved : UInt8 := 0

/-- The byte of a setting that is being looked up. -/
def resolving : UInt8 := 255

/-- Whether a byte is a value, and not one of the two marks. -/
def isValue (b : UInt8) : Bool := b ≠ unresolved && b ≠ resolving

/-- The byte that an environment configures. -/
def configured (s : Setting) (environment : String → Option String) : UInt8 :=
  ((environment s.name).map s.read).getD s.standard

/-- Where a caller stands. -/
inductive Caller where
  | loading
  | claiming
  | reloading
  | looking
  | storing (value : UInt8)
  | returned (value : UInt8)
  deriving DecidableEq, Repr

/-- The next step of a caller. -/
def advance (s : Setting) (environment : String → Option String) : Conduct UInt8 Caller
  | b, .loading =>
    if isValue b then (b, .returned b)
    else if b = resolving then (b, .returned s.standard)
    else (b, .claiming)
  | b, .claiming => if b = unresolved then (resolving, .looking) else (b, .reloading)
  | b, .reloading => (b, .returned (if isValue b then b else s.standard))
  | b, .looking => (b, .storing (s.configured environment))
  | _, .storing value => (value, .returned value)
  | b, .returned value => (b, .returned value)

/-- Callers at work, from a byte that was not looked up yet. -/
def call (s : Setting) (environment : String → Option String) (schedule : List Nat) :
    Crowd UInt8 Caller :=
  Crowd.run (fun _ => s.advance environment) ⟨unresolved, fun _ => .loading⟩ schedule

end Setting

@[simp] theorem Level.ofByte_toByte (level : Level) : Level.ofByte level.toByte = level := by
  cases level <;> decide

@[simp] theorem OnFatal.ofByte_toByte (reaction : OnFatal) :
    OnFatal.ofByte reaction.toByte = reaction := by
  cases reaction <;> decide

end CallBridge.Diagnostic
