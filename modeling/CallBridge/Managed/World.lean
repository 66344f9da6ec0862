import CallBridge.Bridge.Failure
import CallBridge.Diagnostic.Notice
import CallBridge.Managed.Machine

/-!
# Native code among managed runtimes

The world of a process: its managed runtimes, which thread is attached to which of them, the
diagnostics written so far, and what managed code remembers. An act changes the world and has a
result or fails; what it changed before it failed stays changed.
-/

namespace CallBridge.Managed
open Bridge Diagnostic

/-- A thread: the one the process began with, or another one. -/
inductive Thread where
  | main
  | worker (n : Nat)
  deriving DecidableEq, Repr

/-- A thread in words. The system numbers the threads of a process as they come, so the first has the
number one, and the number of any other tells no more than that it is another: the word for it
stands in its place. -/
def Thread.name : Thread → String
  | main => "ThreadId(1)"
  | worker _ => "ThreadId(other)"

/-- The runtimes of a process and what native code has to do with them. -/
structure World (σ : Type) where
  machines : Array (Machine σ) := #[]
  attached : List (Thread × Nat) := []
  notices : Array Notice := #[]
  memory : σ

/-- A change of the world with a result or a failure. -/
def Act (σ α : Type) := World σ → Except Failure α × World σ

namespace Act
variable {σ α β : Type}

@[always_inline]
instance : Monad (Act σ) where
  pure a := fun w => (.ok a, w)
  bind x f := fun w =>
    match x w with
    | (.ok a, w) => f a w
    | (.error e, w) => (.error e, w)

@[inline]
def fail (e : Failure) : Act σ α := fun w => (.error e, w)

@[inline]
def look (f : World σ → α) : Act σ α := fun w => (.ok (f w), w)

@[inline]
def change (f : World σ → World σ) : Act σ Unit := fun w => (.ok (), f w)

theorem bind_eq (x : Act σ α) (f : α → Act σ β) (w : World σ) :
    (x >>= f) w = match x w with
      | (.ok a, w) => f a w
      | (.error e, w) => (.error e, w) := rfl

end Act

namespace World
variable {σ : Type}

/-- The name of a runtime: they are numbered from one on. -/
def runtimeNumber (id : Nat) : Nat := id + 1

/-- Change one runtime. -/
@[inline]
def update (w : World σ) (id : Nat) (f : Machine σ → Machine σ) : World σ :=
  { w with machines := w.machines.modify id f }

/-- Count something asked of a runtime. -/
@[inline]
def count (w : World σ) (id : Nat) (f : Counters → Counters) : World σ :=
  w.update id (·.count f)

/-- Whether a fault is switched on. -/
@[inline]
def faulty (w : World σ) (id : Nat) (f : Fault) : Bool :=
  w.machines[id]?.any (·.faults.has f)

/-- What a runtime counted. -/
def counters (w : World σ) (id : Nat) : Counters := (w.machines[id]?.map (·.counters)).getD {}

/-- How many global references a runtime has made. -/
def referencesCreated (w : World σ) (id : Nat) : Nat := (w.counters id).globalRefsCreated

/-- Whether a thread is attached to a runtime. -/
def isAttached (w : World σ) (thread : Thread) (id : Nat) : Bool :=
  w.attached.contains (thread, id)

/-- Detach a thread from a runtime. -/
def detach (w : World σ) (thread : Thread) (id : Nat) : World σ :=
  { w with attached := w.attached.filter (· ≠ (thread, id)) }

/-- A new runtime with these classes. -/
def create (w : World σ) (classes : List (Class σ)) : World σ :=
  { w with machines := w.machines.push { classes } }

/-- Write a diagnostic. -/
def notify (w : World σ) (severity : Severity) (event : String) (fields : Json) : World σ :=
  { w with notices := w.notices.push ⟨severity, event, fields⟩ }

end World

/-- A native call in progress: its runtime and the number of its frame. -/
structure Context where
  machine : Nat
  frame : Nat
  deriving DecidableEq, Repr, Inhabited

/-- A reference to an object, good for one frame. -/
structure LocalRef where
  object : Nat
  frame : Nat
  deriving DecidableEq, Repr, Inhabited

def LocalRef.render (r : LocalRef) : String :=
  s!"LocalRef \x7b object: {r.object}, frame: {r.frame} \x7d"

variable {σ : Type}

/-- Attach a thread to a runtime; one that is attached stays so, but is refused all the same. -/
def attach (thread : Thread) (id : Nat) : Act σ Unit := fun w =>
  if w.faulty id .attach then
    (.error (.attachRefused (World.runtimeNumber id) thread.name), w)
  else if w.isAttached thread id then (.ok (), w)
  else
    (.ok (), { w.count id .countAttachment with attached := w.attached ++ [(thread, id)] })

/-- Check that a thread is attached to a runtime, and attach it if it is not. -/
def ensureAttached (thread : Thread) (id : Nat) : Act σ Unit := do
  Act.change (·.count id .countCheck)
  attach thread id

/-- Begin a native call of a runtime on a thread. -/
def enter (thread : Thread) (id : Nat) : Act σ Context := do
  attach thread id
  Act.change (·.update id fun m => { m with frames := m.frames + 1 })
  Act.look fun w => ⟨id, (w.machines[id]?.map (·.frames)).getD 0⟩

/-- The class of a name, in a runtime. -/
def findClass (id : Nat) (name : String) : Act σ (Class σ) := fun w =>
  match w.machines[id]?.bind (·.class? name) with
  | some c => (.ok c, w)
  | none => (.error (.classMissing name), w)

/-- A new object of a class, referred to by its frame. -/
def newObject (c : Context) (className : String) : Act σ LocalRef := do
  let _ ← findClass c.machine className
  let object ← Act.look fun w => (w.machines[c.machine]?.map (·.objects.length)).getD 0
  Act.change (·.update c.machine fun m => { m with objects := m.objects ++ [className] })
  return ⟨object, c.frame⟩

/-- Ask a runtime for the handle that lets other threads attach. -/
def requestHandle (c : Context) : Act σ Unit := do
  Act.change (·.count c.machine .countHandle)
  if ← Act.look (·.faulty c.machine .handle) then
    Act.fail (.handleUnavailable (World.runtimeNumber c.machine))

def findMethod (id : Nat) (className : String) (m : Method) (isStatic : Bool) :
    Act σ (Body σ) := do
  let c ← findClass id className
  Act.change (·.count id .countLookup)
  match c.find? m isStatic with
  | some e => return e.body
  | none => Act.fail (.methodMissing isStatic m.name m.signature className)

/-- The class name of the object a local reference names. -/
def classOf (c : Context) (r : LocalRef) : Act σ String := fun w =>
  if r.frame ≠ c.frame then (.error (.foreignFrame r.frame c.frame), w)
  else
    match w.machines[c.machine]?.bind (·.objects[r.object]?) with
    | some name => (.ok name, w)
    | none => (.error .dangling, w)

/-- Call a comparator of a runtime from a thread that is attached to it. -/
def call (id : Nat) (body : Body σ) (q : Question) : Act σ Int32 := do
  Act.change (·.count id .countInvocation)
  if ← Act.look (·.faulty id .invoke) then Act.fail .thrown
  else fun w =>
    let (answer, memory) := body.answer q w.memory
    (.ok answer, { w with memory })

end CallBridge.Managed
