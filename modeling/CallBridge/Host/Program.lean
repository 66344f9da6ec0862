import CallBridge.Host.Clock
import CallBridge.Host.Memory
import CallBridge.Host.OpenFile

/-!
# Programs and their host

A program is a computation that now and then asks its host for something: to read a clock, to read
or write a file, to write a line, for memory. It says what it asks and goes on with the answer,
whoever gives it. `Program.run` answers from a host that is a plain value: clocks, files, memory,
and what was printed.
-/

namespace CallBridge

/-- What a program may ask, with the type of the answer. -/
inductive Request : Type → Type where
  | reading : Request Nat
  | wallTime : Request WallTime
  | reserve (bytes : Nat) : Request (Except MemoryError Unit)
  | readFile (path : String) : Request (Except FileError Content)
  | writeFile (path text : String) : Request (Except FileError Unit)
  | openLog (path : String) : Request (Except FileError Unit)
  | appendLog (line : String) : Request (Except FileError Unit)
  | closeLog : Request (Except FileError Unit)
  | printLine (line : String) : Request Unit
  | report (line : String) : Request Unit

/-- A computation that asks its host. -/
inductive Program (α : Type) : Type 1 where
  | done (a : α)
  | ask {β : Type} (request : Request β) (next : β → Program α)

/-- A host: its clocks and files, the room in its memory, the log that is open, and what was printed
and reported. -/
structure Host where
  wall : WallClock
  clock : Clock
  files : Files := {}
  room : Nat := Nat.pow 2 33
  log : Option OpenFile := none
  output : String := ""
  errors : String := ""
  deriving Inhabited

namespace Host

/-- Make a file or empty the one that is there. -/
def create (h : Host) (path : String) : Except FileError (Files.Target × Host) :=
  match h.files.resolve .new path with
  | .ok target => .ok (target, { h with files := h.files.clear target })
  | .error e => .error e

/-- Write a piece of text to a target. A stream takes it as the next. -/
def deliver (target : Files.Target) (h : Host) (p : Piece) : Except FileError Host :=
  match target with
  | .stream .output => .ok { h with output := h.output ++ p.text }
  | .stream .errors => .ok { h with errors := h.errors ++ p.text }
  | _ =>
    match h.files.writeAt target p.place (.ofText p.text) with
    | .ok files => .ok { h with files }
    | .error e => .error (.system e)

/-- Write a file from its beginning. One that cannot take its text is left empty. -/
def writeFile (h : Host) (path text : String) : Except FileError Unit × Host :=
  match h.create path with
  | .error e => (.error e, h)
  | .ok (target, h) =>
    match deliver target h ⟨0, text⟩ with
    | .ok h => (.ok (), h)
    | .error e => (.error e, h)

/-- Open the log anew; a file of this name is emptied. -/
def openLog (h : Host) (path : String) : Except FileError Unit × Host :=
  match h.create path with
  | .ok (target, h) =>
    let files := { h.files with opened := h.files.opened ++ [target] }
    (.ok (), { h with files, log := some { target } })
  | .error e => (.error e, h)

/-- Write a text to the open log. The log holds back what could not be handed over. -/
def writeLog (h : Host) (text : String) : Except FileError Host :=
  match h.log with
  | none => .ok h
  | some log =>
    let (pieces, log) := log.write text
    (pieces.foldlM (deliver log.target) h).map ({ · with log := some log })

/-- Write a line to the open log. -/
def appendLog (h : Host) (line : String) : Except FileError Unit × Host :=
  match h.writeLog line with
  | .error e => (.error e, h)
  | .ok h =>
    match h.writeLog "\n" with
    | .error e => (.error e, h)
    | .ok h => (.ok (), h)

/-- Write out and close the log. -/
def closeLog (h : Host) : Except FileError Unit × Host :=
  match h.log with
  | none => (.ok (), h)
  | some log =>
    let h := { h with log := none, files := { h.files with opened := Files.standardTargets } }
    match log.flush.1.foldlM (deliver log.target) h with
    | .ok h => (.ok (), h)
    | .error e => (.error e, h)

/-- Answer a request. -/
def serve {β : Type} : Request β → Host → β × Host
  | .reading, h =>
    let (t, clock) := h.clock.read
    (t, { h with clock })
  | .wallTime, h =>
    let (t, wall) := h.wall.read
    (t, { h with wall })
  | .reserve bytes, h => (Memory.reserve h.room bytes, h)
  | .readFile path, h => (h.files.read path, h)
  | .writeFile path text, h => h.writeFile path text
  | .openLog path, h => h.openLog path
  | .appendLog line, h => h.appendLog line
  | .closeLog, h => h.closeLog
  | .printLine line, h => ((), { h with output := h.output ++ line ++ "\n" })
  | .report line, h => ((), { h with errors := h.errors ++ line ++ "\n" })

end Host

namespace Program
variable {α β : Type}

/-- Continue with `f` where the program ends. -/
def bind : Program α → (α → Program β) → Program β
  | done a, f => f a
  | ask r next, f => ask r fun b => (next b).bind f

instance : Monad Program where
  pure := done
  bind := bind

/-- Ask for one thing. -/
def request (r : Request α) : Program α := ask r done

def run : Program α → Host → α × Host
  | done a, h => (a, h)
  | ask r next, h =>
    let answer := h.serve r
    (next answer.1).run answer.2

@[simp] theorem run_pure (a : α) (h : Host) : (pure a : Program α).run h = (a, h) := rfl

@[simp] theorem run_request (r : Request α) (h : Host) : (request r).run h = h.serve r := rfl

/-- A program and its continuation run one after the other. -/
@[simp] theorem run_bind (p : Program α) (f : α → Program β) (h : Host) :
    (p >>= f).run h = (f (p.run h).1).run (p.run h).2 := by
  change (p.bind f).run h = _
  induction p generalizing h with
  | done a => rfl
  | ask r next ih => exact ih _ _

theorem bind_done (p : Program α) : p.bind done = p := by
  induction p with
  | done a => rfl
  | ask r next ih => exact congrArg (ask r) (funext ih)

theorem bind_bind {γ : Type} (p : Program α) (f : α → Program β) (g : β → Program γ) :
    (p.bind f).bind g = p.bind fun a => (f a).bind g := by
  induction p with
  | done a => rfl
  | ask r next ih => exact congrArg (ask r) (funext ih)

instance : LawfulMonad Program :=
  LawfulMonad.mk' Program bind_done (fun _ _ => rfl) bind_bind

end Program
end CallBridge
