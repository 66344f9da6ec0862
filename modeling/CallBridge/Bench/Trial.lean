import CallBridge.Bench.Arrangement
import CallBridge.Bench.Workbench
import CallBridge.Bridge.Undisturbed
import CallBridge.SystemInfo

/-!
# Trials

A trial is a shape at a length, ready to be called again and again. It has a context, a comparator
object and a text of its own, and a buffer that each sort fills anew from the input. What sorting
the input in ascending order gives is found once for all calls; a call that is a sort in ascending
order takes it from there, and is the sort all the same (`sortInput_eq`, `sortNatively_buffer`).
-/

namespace CallBridge.Bench
open Bridge Managed

/-- What sorting an input in ascending order gives, found when it is first needed. -/
structure Prospect (input : Array Int32) where
  outcome : Thunk (Array Int32 × Nat)
  outcome_get : outcome.get = Sort.ascendingWalk input

def Prospect.of (input : Array Int32) : Prospect input :=
  ⟨⟨fun _ => Sort.ascendingWalk input⟩, rfl⟩

/-- A shape at a length, ready to be called. -/
structure Trial where
  shape : CallShape
  length : Nat
  context : Context
  comparator : LocalRef
  input : Array Int32
  prospect : Prospect input
  buffer : Array Int32
  text : CText.Bytes

/-- What a call gives back. -/
inductive Reply where
  | nothing
  | length (n : Nat)
  | text (memory : CText.Bytes)
  | memory (info : SystemInfo)
  deriving Repr, Inhabited

/-- A text with its terminator; a NUL inside of it would end it early. -/
def terminatedText (s : CText.Bytes) : Except RunError CText.Bytes :=
  match s.findIdx? (· = 0) with
  | none => .ok (CText.terminated s)
  | some i => .error (.invalidArgument s!"nul byte found in provided data at position: {i}")

namespace Trial
variable {σ : Type}

/-- Prepare a trial: its context and its comparator object come first. -/
def prepare (shape : CallShape) (length : Nat) (arrangement : Arrangement) (seed : UInt64) :
    Task σ Trial := do
  let context ← Task.act (enter .main Workbench.machine)
  let comparator ← Task.act (newObject context ascendingClass)
  let pattern ← Task.look (·.patterns.get length)
  Task.change ({ · with patterns := pattern.2 })
  match terminatedText pattern.1.memory.dropLast with
  | .error e => Task.fail e
  | .ok text =>
    let input := generate arrangement length seed
    return {
      shape
      length
      context
      comparator
      input
      prospect := .of input
      buffer := input
      text }

/-- What the kernel tells of memory in a trial. -/
def kernel : SystemInfo := ⟨0x40000000, 1⟩

/-- The length a text is asked for with: the largest signed 32-bit number if it is beyond. -/
def requestLength (t : Trial) : Int32 := Int32.ofNat (min t.length (Nat.pow 2 31 - 1))

/-- Sort the input on this side of the boundary, in ascending order. -/
def sortNatively (t : Trial) : Trial := { t with buffer := t.prospect.outcome.get.1 }

/-- The buffer is the one that a comparison function handed over a C boundary leaves. -/
theorem sortNatively_buffer (t : Trial) :
    some t.sortNatively.buffer =
      (Sort.bounded (some Sort.countingAscending) t.input.size (some t.input) 0).1 := by
  simp [sortNatively, t.prospect.outcome_get, Sort.bounded, Sort.ascendingWalk, Sort.byValue,
    Sort.byPosition, Sort.countingAscending]

/-- Sort the input through a binding. -/
def sortInput (t : Trial) (b : Binding σ) (w : World σ) : Sorted σ :=
  if b.isUndisturbed .main w then
    let (buffer, questions) := t.prospect.outcome.get
    ⟨.ok (), buffer, w.countQuestions b.machine questions⟩
  else b.sort .main (.whole t.input) t.input w

/-- Whether it is foreseen or not, the outcome is that of the sort through the binding. -/
theorem sortInput_eq (t : Trial) (b : Binding σ) (w : World σ) :
    t.sortInput b w = b.sort .main (.whole t.input) t.input w := by
  unfold sortInput
  split
  · rename_i h
    rw [Binding.sort_eq_of_isUndisturbed h, t.prospect.outcome_get]
  · rfl

/-- The end of a sort that asked managed code. -/
def finish (t : Trial) (b : Workbench σ) (sorted : Sorted σ) :
    Except Failure Reply × Trial × Workbench σ :=
  (sorted.result.map fun _ => .nothing, { t with buffer := sorted.buffer },
    { b with world := sorted.memory })

/-- Call the shape once. A sort starts from the input; if it fails, its buffer stays as left. -/
def call (t : Trial) (b : Workbench σ) : Except Failure Reply × Trial × Workbench σ :=
  match t.shape with
  | .noop | .acceptString => (.ok .nothing, t, b)
  | .strlen => (.ok (.length (CText.reportedLength (some t.text))), t, b)
  | .getString =>
    let (text, patterns) := b.patterns.get (CText.requestedLength t.requestLength)
    (.ok (.text text.memory), t, { b with patterns })
  | .sysinfo => (.ok (.memory kernel), t, b)
  | .qsortNative => (.ok .nothing, t.sortNatively, b)
  | .qsortStatic =>
    let (sorted, statics) := b.statics.sortWith t.context .benchmark t.sortInput t.input b.world
    t.finish { b with statics } sorted
  | .qsortInstance =>
    let (sorted, instances) :=
      b.instances.sortWith t.context (.comparator t.comparator) t.sortInput t.input b.world
    t.finish { b with instances } sorted
  | .qsortFresh =>
    t.finish b (sortFreshWith t.context (.comparator t.comparator) t.sortInput t.input b.world)

/-- Call the shape `n` times, up to the first failure. -/
def repeatCall : (n : Nat) → Trial → Workbench σ → Except Failure Unit × Trial × Workbench σ
  | 0, t, b => (.ok (), t, b)
  | n + 1, t, b =>
    match t.call b with
    | (.ok _, t, b) => repeatCall n t b
    | (.error e, t, b) => (.error e, t, b)

/-- Call the shape `n` times as a task. -/
def calls (t : Trial) (n : Nat) : Task σ Trial := fun b =>
  match repeatCall n t b with
  | (.ok _, t, b) => .done (.ok t, b)
  | (.error e, _, b) => .done (.error (.bridge e), b)

end Trial

variable {σ : Type}

/-- Sort a buffer through the raw-address boundary with a comparator object of a class. A failure
past the making of that object ends the process: the buffer is given with the sort's result. -/
def sortThroughBoundary (reaction : Diagnostic.OnFatal) (className : String)
    (buffer : Array Int32) : Task σ (Except Failure Unit × Array Int32) := do
  let context ← Task.act (enter .main Workbench.machine)
  let comparator ← Task.act (newObject context className)
  fun b =>
    let (sorted, instances) := b.instances.sortOrEnd reaction .main context
      (.comparator comparator) (some 0) buffer.size buffer b.world
    .done (.ok (sorted.result, sorted.buffer), { b with instances, world := sorted.memory })

end CallBridge.Bench
