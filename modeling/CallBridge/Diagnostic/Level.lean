import CallBridge.Text.Blank

/-!
# Diagnostic settings

Two settings come from the environment: the threshold from which on diagnostics are written and what
a failure that cannot be reported does to the process. Both are read loosely; a text that names
nothing gives the default. A setting is kept as one byte, whose two reserved values say that it was
not looked up yet or is being looked up.
-/

namespace CallBridge.Diagnostic

/-- How severe a diagnostic is; also the threshold. The later ones are the less severe. -/
inductive Level where
  | off | error | warn | info | debug
  deriving DecidableEq, Repr, Inhabited

namespace Level

/-- The place in the order of levels. -/
def rank : Level → Nat
  | off => 0
  | error => 1
  | warn => 2
  | info => 3
  | debug => 4

def name : Level → String
  | off => "off"
  | error => "error"
  | warn => "warn"
  | info => "info"
  | debug => "debug"

/-- The threshold without a setting. -/
def standard : Level := warn

def words : List (String × Level) :=
  [("off", off), ("none", off), ("quiet", off), ("0", off), ("error", error), ("err", error),
    ("warn", warn), ("warning", warn), ("info", info), ("debug", debug), ("trace", debug),
    ("all", debug)]

/-- Read a level, with blanks around it and in any case. -/
def ofText (s : String) : Level :=
  let word := Text.lower (Text.trim s)
  ((words.find? (·.1 = word)).map (·.2)).getD standard

/-- Whether a diagnostic of this level is written at a threshold. -/
def passes (level threshold : Level) : Bool :=
  level ≠ off && level.rank ≤ threshold.rank

/-- The byte a level is kept as. -/
def toByte (level : Level) : UInt8 := UInt8.ofNat (level.rank + 1)

/-- The level a byte stands for. -/
def ofByte (b : UInt8) : Level :=
  ([off, error, warn, info, debug].find? (·.toByte = b)).getD standard

end Level

/-- What a failure that cannot be reported does to the process. -/
inductive OnFatal where
  | exit | abort
  deriving DecidableEq, Repr, Inhabited

namespace OnFatal

def name : OnFatal → String
  | exit => "exit"
  | abort => "abort"

/-- The reaction without a setting. -/
def standard : OnFatal := exit

/-- Read a reaction, with blanks around it and in any case. -/
def ofText (s : String) : OnFatal :=
  let word := Text.lower (Text.trim s)
  if word = "abort" ∨ word = "crash" ∨ word = "sigabrt" then abort else standard

/-- The byte a reaction is kept as. -/
def toByte : OnFatal → UInt8
  | exit => 1
  | abort => 2

/-- The reaction a byte stands for. -/
def ofByte (b : UInt8) : OnFatal := if b = 2 then abort else exit

end OnFatal

/-- The exit status of a process ended by such a failure. -/
def fatalStatus : Nat := 70

/-- How a process ends. -/
inductive Ending where
  | status (code : Nat)
  | aborted
  deriving DecidableEq, Repr, Inhabited

/-- How such a failure ends the process. -/
def OnFatal.ending : OnFatal → Ending
  | exit => .status fatalStatus
  | abort => .aborted

end CallBridge.Diagnostic
