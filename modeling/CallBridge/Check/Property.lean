import CallBridge.Bench.Arrangement
import CallBridge.Check.Summary
import CallBridge.Check.Verification

/-!
# Properties of the bridge

Eight properties of sorting and binding, each checked in a world of its own with inputs drawn from a
seed. `verifyAll` checks all of them, in the order of `Property.all`.
-/

namespace CallBridge.Check
open Bench Bridge Managed

/-- A property: its name and its check, from a seed to a verdict's detail and the diagnostics. -/
structure Property where
  name : String
  check : UInt64 → Except String String × Array Diagnostic.Notice

/-- Check in a new world with these classes. -/
def checkIn {σ : Type} (classes : List (Class σ)) (memory : σ)
    (v : Verification σ String) : Except String String × Array Diagnostic.Notice :=
  let (result, w) := v (({ memory } : World σ).create classes)
  (result, w.notices)

/-- Check in a new world with the benchmark's classes. -/
def checkStandard (v : Verification Unit String) :
    Except String String × Array Diagnostic.Notice :=
  checkIn Class.benchmarks () v

namespace Property
open Verification

/-- The only runtime of a check. -/
def machine : Nat := 0

/-- Whether no element is greater than the one after it. -/
def isSorted (a : Array Int32) : Bool :=
  (a.toList.zip (a.toList.drop 1)).all fun (x, y) => x ≤ y

/-- Elements in brackets. -/
def listText (a : Array Int32) : String :=
  "[" ++ ", ".intercalate (a.toList.map fun x => toString x.toInt) ++ "]"

/-- The two registries of a check and its generator, with the number of sorts so far. -/
structure Sorts where
  statics : Registry Unit
  instances : Registry Unit
  generator : Generator
  checked : Nat

/-- Sort one more input with the static comparator and with a comparator object. -/
def sortTwice (c : Context) (r : LocalRef) (s : Sorts) (input : Nat × Arrangement) :
    Verification Unit Sorts := do
  let (length, arrangement) := input
  let (seed, generator) := s.generator.next
  let data := generate arrangement length seed
  let (a, statics) ← sort s.statics c .benchmark data
  let (b, instances) ← sort s.instances c (.comparator r) data
  if !isSorted a ∨ a ≠ b then
    fail s!"{arrangement.name} input of {length} elements not sorted"
  else
    return { statics, instances, generator, checked := s.checked + 2 }

/-- The lengths of the inputs that are sorted. -/
def sortedLengths : List Nat := [0, 1, 2, 3, 17, 64, 128]

/-- Inputs of many lengths and all orders come out sorted. -/
def sortCorrectness (seed : UInt64) : Except String String × Array Diagnostic.Notice :=
  checkStandard do
    let c ← act (enter .main machine)
    let r ← act (newObject c ascendingClass)
    let (sorted, statics) ← sort {} c .benchmark #[5, 3, 3, -1, 0]
    if sorted ≠ #[-1, 0, 3, 3, 5] then
      fail s!"example sorted to {listText sorted}"
    else
      let inputs := sortedLengths.flatMap fun n => Arrangement.all.map fun a => (n, a)
      let start : Sorts := { statics, instances := {}, generator := .ofSeed seed, checked := 1 }
      let s ← fold (sortTwice c r) start inputs
      return s!"{s.checked} buffers sorted"

/-- The registry of a check and its generator, with the number of calls so far. -/
structure Calls where
  registry : Registry Unit
  generator : Generator
  total : Nat

/-- Sort one more random input and compare the number of calls. -/
def sortCounting (c : Context) (s : Calls) (length : Nat) : Verification Unit Calls := do
  let (seed, generator) := s.generator.next
  let data := generate .random length seed
  let before ← look (·.counters machine |>.invocations)
  let (_, registry) ← sort s.registry c .benchmark data
  let after ← look (·.counters machine |>.invocations)
  let calls := after - before
  let expected := Sort.ascendingCalls data
  if calls ≠ expected then
    fail s!"{length} elements: {calls} bridge calls, algorithm makes {expected}"
  else
    return { registry, generator, total := s.total + calls }

/-- A sort asks managed code as often as the sort asks any comparator. -/
def comparisonCountParity (seed : UInt64) : Except String String × Array Diagnostic.Notice :=
  checkStandard do
    let c ← act (enter .main machine)
    let start : Calls := { registry := {}, generator := .ofSeed seed, total := 0 }
    let s ← fold (sortCounting c) start [0, 1, 2, 8, 32, 128]
    return s!"{s.total} bridge calls matched"

/-- Binding again gives the same binding and makes no further reference. -/
def idempotentBinding (_seed : UInt64) : Except String String × Array Diagnostic.Notice :=
  checkStandard do
    let c ← act (enter .main machine)
    let r ← act (newObject c ascendingClass)
    let (first, registry) ← bind {} c (.comparator r)
    let references ← look (·.referencesCreated machine)
    let _ ← fold (fun registry _ => do
      let (again, registry) ← bind registry c (.comparator r)
      if first.isSame again then return registry
      else fail "bind returned a different binding") registry (List.range 16)
    let after ← look (·.referencesCreated machine)
    if after ≠ references ∨ after ≠ 1 then
      fail s!"{after} global references created, expected 1"
    else return "17 binds, 1 global reference"

/-- Pairs of values that were compared, the last one first. -/
abbrev Pairs := List (Int32 × Int32)

/-- The static comparator that remembers what it was asked. -/
def recordingClass : Class Pairs :=
  Class.add ⟨benchmarkClass, []⟩ .staticComparator true <| .remembering fun q pairs =>
    (Sort.ascending q.leftValue q.rightValue, (q.leftValue, q.rightValue) :: pairs)

/-- Every third item of a list, from the first one on. -/
def everyThird {α : Type} : List α → List α
  | a :: _ :: _ :: rest => a :: everyThird rest
  | a :: _ => [a]
  | [] => []

/-- Whether two values stand in a buffer in the order of their comparison. -/
def inOrder (buffer : Array Int32) (pair : Int32 × Int32) : Bool :=
  match buffer.toList.idxOf? pair.1, buffer.toList.idxOf? pair.2 with
  | some a, some b => decide (pair.1 < pair.2) == decide (a < b)
  | _, _ => false

/-- Values that were compared end up in the order the comparator gave them. -/
def orderingConsistency (seed : UInt64) : Except String String × Array Diagnostic.Notice :=
  checkIn [recordingClass] [] do
    let c ← act (enter .main machine)
    let (sorted, _) ← sort {} c .benchmark (generate .random 100 seed)
    let pairs ← look (·.memory.reverse)
    let sampled := (everyThird pairs).filter fun (a, b) => a ≠ b
    match sampled.find? (!inOrder sorted ·) with
    | some (a, b) => fail s!"{a.toInt} and {b.toInt} out of comparator order"
    | none => return s!"{sampled.length} of {pairs.length} compared pairs sampled"

/-- A number mixed into a seed to get another one. -/
def otherSeed (seed : UInt64) : UInt64 := seed ^^^ 0x9E3779B9

/-- Two threads sort buffers of their own through one binding, in the one or the other order. -/
def disjointSorts (secondFirst : Bool) (seed : UInt64) :
    Except String String × Array Diagnostic.Notice :=
  checkStandard do
    let c ← act (enter .main machine)
    let (b, _) ← bind {} c .benchmark
    let first := trySortBound b (.worker 1) (generate .random 100 seed)
    let second := trySortBound b (.worker 2) (generate .random 100 (otherSeed seed))
    let ((a, left), (b, right)) ← both secondFirst first second
    match a, b with
    | .error e, _ | .ok _, .error e => fail (unexpected e)
    | .ok _, .ok _ =>
      if left ≠ upward 100 ∨ right ≠ upward 100 then
        fail "a concurrent sort left its buffer unsorted"
      else return "2 threads x 100 elements sorted"

def allSame : List (Binding Unit) → Bool
  | a :: b :: rest => a.isSame b && allSame (b :: rest)
  | _ => true

/-- How many threads race for a binding. -/
abbrev racers : Nat := 8

/-- A race for a binding: the order in which the threads attach, which all of them do before any
binds, and the turns they take at binding. -/
structure Race where
  arrivals : List Nat := List.range racers
  everyone : arrivals.Perm (List.range racers) := by exact .refl _
  turns : List (Fin racers) := []

/-- The turns of a race, and after them as many for everyone as bring a call to its end. -/
def Race.schedule (r : Race) : List Nat :=
  r.turns.map (·.val) ++ Call.rounds 6 (List.range racers)

/-- Attach a thread, whose context is its own from then on. -/
def arrive (contexts : Nat → Context) (n : Nat) : Verification Unit (Nat → Context) := do
  let c ← act (enter (.worker n) machine)
  return fun i => if i = n then c else contexts i

/-- Threads that all bind first bind once. -/
def exactlyOnceBinding (race : Race) (_seed : UInt64) :
    Except String String × Array Diagnostic.Notice :=
  checkStandard do
    let threads := List.range racers
    let contexts ← fold arrive (fun _ => default) race.arrivals
    let results ← contend contexts .benchmark threads race.schedule
    match results.mapM id with
    | .error e => fail (unexpected e)
    | .ok bound =>
      if !allSame bound then fail "threads observed different bindings"
      else
        let counters ← look (·.counters machine)
        if counters.globalRefsCreated ≠ 1 ∨ counters.methodLookups ≠ 1 then
          fail (s!"{counters.methodLookups} lookups and {counters.globalRefsCreated} " ++
            "global references for one binding")
        else return s!"{threads.length} racing threads, 1 binding"

/-- A class without the comparator is refused before anything is sorted. -/
def resolutionFailure (_seed : UInt64) : Except String String × Array Diagnostic.Notice :=
  checkStandard do
    let c ← act (enter .main machine)
    let broken ← act (newObject c brokenClass)
    let (result, data, registry) ← trySort {} c (.comparator broken) #[3, 1, 2]
    match result with
    | .ok _ => fail "sort succeeded without a comparator method"
    | .error e =>
      if e.stage? = some .methodLookup ∧ data = #[3, 1, 2] ∧ !registry.isBound then
        return "missing comparator method rejected before sorting"
      else fail s!"wrong error: {e.message}"

/-- A thread that is refused makes the sort fail. -/
def attachmentFailure (_seed : UInt64) : Except String String × Array Diagnostic.Notice :=
  checkStandard do
    let c ← act (enter .main machine)
    let (b, _) ← bind {} c .benchmark
    change (·.update machine fun m => { m with faults := m.faults.inject .attach })
    let (result, _) ← trySortBound b .main #[4, 3, 2, 1]
    change (·.update machine fun m => { m with faults := {} })
    match result with
    | .ok _ => fail "sort succeeded with attachment refused"
    | .error (.attachment _) => return "attachment error surfaced"
    | .error e => fail s!"wrong error: {e.message}"

/-- Every property, in the order of a report. -/
def all : List Property :=
  [⟨"sort_correctness", sortCorrectness⟩, ⟨"comparison_count_parity", comparisonCountParity⟩,
    ⟨"idempotent_binding", idempotentBinding⟩, ⟨"ordering_consistency", orderingConsistency⟩,
    ⟨"concurrent_disjoint_sorts", disjointSorts false⟩,
    ⟨"exactly_once_binding", exactlyOnceBinding {}⟩, ⟨"resolution_failure", resolutionFailure⟩,
    ⟨"attachment_failure", attachmentFailure⟩]

def find (name : String) : Except RunError Property :=
  match all.find? (·.name = name) with
  | some p => .ok p
  | none => .error (.invalidArgument ("unknown property " ++ DecodeError.ticked name))

end Property

/-- Check properties one after the other, with the diagnostics of all of them. -/
def verify (ps : List Property) (seed : UInt64) : Summary × List Diagnostic.Notice :=
  let results := ps.map fun p => (p.name, p.check seed)
  (.ofVerdicts (results.map fun (name, result, _) => .ofCheck name result),
    results.flatMap fun (_, _, notices) => notices.toList)

def verifyAll (seed : UInt64) : Summary × List Diagnostic.Notice := verify Property.all seed

def verifyOne (name : String) (seed : UInt64) :
    Except RunError (Summary × List Diagnostic.Notice) :=
  (Property.find name).map fun p => verify [p] seed

end CallBridge.Check
