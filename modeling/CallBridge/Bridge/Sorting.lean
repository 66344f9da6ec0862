import CallBridge.Bridge.Registry

/-!
# Sorting through a binding

A segment of a buffer is sorted with every order answered by a managed comparator. The sort is the
same decision tree as everywhere; its comparer names the two elements by their tokens. A failed
question ends the sort and leaves the buffer as it stands.

At the raw-address entry point a count and an address stand for the segment; a failure there cannot
be reported to the caller and ends the process.
-/

namespace CallBridge.Bridge
open Managed Diagnostic

variable {σ : Type}

/-- Where buffers stand in memory. -/
def bufferBase : UInt64 := 0x1000

/-- The question about two positions of a buffer. -/
def question (left right : Nat) (buffer : Array Int32) : Question :=
  ⟨Token.ofPosition bufferBase left, Token.ofPosition bufferBase right, Sort.valueAt buffer left,
    Sort.valueAt buffer right⟩

/-- The comparer that asks a binding on a thread. -/
def Binding.comparer (b : Binding σ) (thread : Thread) : Comparer (World σ) Failure Int32 :=
  fun left right buffer => b.invoke thread (question left right buffer)

/-- A part of a buffer: `length` elements from the position `start` on. -/
structure Segment where
  start : Nat
  length : Nat
  deriving DecidableEq, Repr

def Segment.whole (buffer : Array Int32) : Segment := ⟨0, buffer.size⟩

/-- How a sort ended: its result, the buffer as left, and the world. -/
abbrev Sorted (σ : Type) := Walk (World σ) Failure Int32 Unit

/-- Sort a segment through a binding on a thread. -/
def Binding.sort (b : Binding σ) (thread : Thread) (part : Segment) (buffer : Array Int32)
    (w : World σ) : Sorted σ :=
  (Sort.segment part.start part.length).follow (b.comparer thread) buffer w

/-- Sort a buffer with the binding of a registry, which is bound first if need be, even for a sort
that needs no question. -/
def Registry.sortWith (r : Registry σ) (c : Context) (s : Source)
    (sort : Binding σ → World σ → Sorted σ) (buffer : Array Int32) (w : World σ) :
    Sorted σ × Registry σ :=
  match r.bind c s w with
  | (.ok b, r, w) => (sort b w, r)
  | (.error e, r, w) => (⟨.error e, buffer, w⟩, r)

/-- Sort a segment through a registry. -/
def Registry.sort (r : Registry σ) (thread : Thread) (c : Context) (s : Source) (part : Segment)
    (buffer : Array Int32) (w : World σ) : Sorted σ × Registry σ :=
  r.sortWith c s (·.sort thread part buffer) buffer w

/-- Sort a buffer with a binding made for this one sort. -/
def sortFreshWith (c : Context) (s : Source) (sort : Binding σ → World σ → Sorted σ)
    (buffer : Array Int32) (w : World σ) : Sorted σ :=
  match resolve c s w with
  | (.ok b, w) =>
    let sorted := sort b w
    { sorted with memory := b.release sorted.memory }
  | (.error e, w) => ⟨.error e, buffer, w⟩

/-- Sort a segment through a binding made for this one sort. -/
def sortFresh (thread : Thread) (c : Context) (s : Source) (part : Segment)
    (buffer : Array Int32) (w : World σ) : Sorted σ :=
  sortFreshWith c s (·.sort thread part buffer) buffer w

/-- The segment behind an address, given as a position of the buffer unless it is null, and a count.
Nothing stands behind a null address or a count that is not positive. -/
def segmentAt (address : Option Nat) (count : Int) : Segment :=
  match address with
  | some start => ⟨start, count.toNat⟩
  | none => ⟨0, 0⟩

/-- Sort the segment behind an address through a registry. -/
def Registry.sortAt (r : Registry σ) (thread : Thread) (c : Context) (s : Source)
    (address : Option Nat) (count : Int) (buffer : Array Int32) (w : World σ) :
    Sorted σ × Registry σ :=
  r.sort thread c s (segmentAt address count) buffer w

/-- The fields of the diagnostic on a failure that ends the process. -/
def fatalFields (reaction : OnFatal) (e : Failure) : Json :=
  .object [("action", .str reaction.name), ("error", .str e.message),
    ("exit_code", .nat fatalStatus), ("kind", .str e.kind)]

/-- How a call ends that cannot tell of a failure: it returns, or the process ends. -/
inductive Outcome where
  | returned
  | ended (ending : Ending)
  deriving DecidableEq, Repr

/-- How such a call ends with a result. -/
def outcome (reaction : OnFatal) : Except Failure Unit → Outcome
  | .ok () => .returned
  | .error _ => .ended reaction.ending

/-- Sort the segment behind an address for a caller who cannot be told of a failure: one is written
as a last diagnostic, and the result says that the process ends by it. -/
def Registry.sortOrEnd (r : Registry σ) (reaction : OnFatal) (thread : Thread) (c : Context)
    (s : Source) (address : Option Nat) (count : Int) (buffer : Array Int32) (w : World σ) :
    Sorted σ × Registry σ :=
  let (sorted, r) := r.sortAt thread c s address count buffer w
  match sorted.result with
  | .ok () => (sorted, r)
  | .error e =>
    ({ sorted with
        memory := sorted.memory.notify .fatal "bridge_fatal" (fatalFields reaction e) }, r)

end CallBridge.Bridge
