import CallBridge.Check.Property
import CallBridge.Proofs.Check.Passing

/-!
# Every property holds, whatever the seed

Each check is followed through its world. The sorted inputs come out as the numbers going up, since
they are permutations of these (`passes_sort`, `ascendingWalk_generate`); the questions counted are
those of the ascending order; and pairs that were compared stand in the order of their comparison,
since they are values of a buffer that is in order (`inOrder_of_ordered`). Threads that race for a
binding come to it in every order (`exactlyOnceBinding_ok`). The other checks that draw no input are
runs of their own. `verifyAll_passes` puts the verdicts together.
-/

namespace CallBridge

/-- What holds of a buffer and a memory, and is kept by exchanges and by questions about positions
inside of the buffer, holds at the end of a walk. -/
theorem DecisionTree.Within.follow_invariant {σ ε α ρ : Type} {ask : Comparer σ ε α}
    {I : Array α → σ → Prop}
    (exchange : ∀ i j buffer memory, I buffer memory → I (buffer.swapIfInBounds i j) memory)
    (compare : ∀ left right buffer memory, left < buffer.size → right < buffer.size →
      I buffer memory → I buffer (ask left right buffer memory).2)
    {t : DecisionTree ρ} {buffer : Array α} {memory : σ} (ht : t.Within 0 buffer.size)
    (h : I buffer memory) :
    I (t.follow ask buffer memory).buffer (t.follow ask buffer memory).memory := by
  induction t generalizing buffer memory with
  | done r => exact h
  | exchange i j next ih =>
    exact ih (by rw [Array.size_swapIfInBounds]; exact ht.2.2) (exchange i j _ _ h)
  | compare left right next ih =>
    obtain ⟨hl, hr, hnext⟩ := ht
    have hasked := compare left right buffer memory (by omega) (by omega) h
    simp only [follow]
    split
    · next answer memory' heq =>
      rw [heq] at hasked
      exact ih _ (hnext _) hasked
    · next e memory' heq =>
      rw [heq] at hasked
      exact hasked

end CallBridge

namespace CallBridge.Check
open Bench Bridge Managed CallBridge.Sort

variable {σ : Type}

theorem checkIn_of_passes {classes : List (Class σ)} {memory : σ} {v : Verification σ String}
    {P : String → World σ → Prop} (h : v.Passes (({ memory } : World σ).create classes) P) :
    ∃ detail, (checkIn classes memory v).1 = .ok detail := by
  obtain ⟨detail, w, hv, -⟩ := h
  exact ⟨detail, by simp [checkIn, hv]⟩

namespace Property
open Verification

/-! ### Buffers in order -/

theorem isSorted_of_ordered {a : Array Int32} (h : Ordered ascending a) : isSorted a := by
  rw [ordered_ascending_iff] at h
  unfold isSorted
  generalize a.toList = xs at h
  induction xs with
  | nil => rfl
  | cons x rest ih =>
    obtain ⟨hx, hrest⟩ := List.pairwise_cons.1 h
    cases rest with
    | nil => rfl
    | cons y rest =>
      have hxy := hx y (List.mem_cons_self ..)
      simpa [hxy] using ih hrest

/-- Two values of a buffer in ascending order stand in the order of their comparison. -/
theorem inOrder_of_ordered {buffer : Array Int32} (h : Ordered ascending buffer) {a b : Int32}
    (ha : a ∈ buffer) (hb : b ∈ buffer) (hne : a ≠ b) : inOrder buffer (a, b) := by
  rw [ordered_ascending_iff, List.pairwise_iff_getElem] at h
  have hplace : ∀ x ∈ buffer, ∃ i, buffer.toList.idxOf? x = some i := by
    intro x hx
    cases hidx : buffer.toList.idxOf? x with
    | none => exact absurd (Array.mem_toList_iff.2 hx) (List.idxOf?_eq_none_iff.1 hidx)
    | some i => exact ⟨i, rfl⟩
  obtain ⟨i, hi⟩ := hplace a ha
  obtain ⟨j, hj⟩ := hplace b hb
  obtain ⟨hil, hia, -⟩ := List.idxOf?_eq_some_iff.1 hi
  obtain ⟨hjl, hjb, -⟩ := List.idxOf?_eq_some_iff.1 hj
  have hlt : a < b ↔ i < j := by
    constructor
    · intro hab
      rcases Nat.lt_trichotomy i j with hij | rfl | hji
      · exact hij
      · exact absurd (hia.symm.trans hjb) hne
      · have hba := h j i hjl hil hji
        rw [hia, hjb] at hba
        exact absurd hab (Int32.not_lt.2 hba)
    · intro hij
      have hab := h i j hil hjl hij
      rw [hia, hjb] at hab
      exact Int32.lt_of_le_of_ne hab hne
  simp [inOrder, hi, hj, hlt]

theorem everyThird_subset {α : Type} (xs : List α) : everyThird xs ⊆ xs := by
  fun_induction everyThird xs with
  | case1 a b c rest ih =>
    intro x hx
    rcases List.mem_cons.1 hx with rfl | hx
    · exact List.mem_cons_self ..
    · exact List.mem_cons_of_mem _ (List.mem_cons_of_mem _ (List.mem_cons_of_mem _ (ih hx)))
  | case2 a rest => exact List.cons_subset_cons _ (List.nil_subset _)
  | case3 => exact List.Subset.refl _

/-! ### The first acts of a check -/

theorem passes_enter (classes : List (Class σ)) (memory : σ) :
    Passes (act (enter .main machine)) (({ memory } : World σ).create classes) fun c w =>
      c = ⟨machine, 1⟩ ∧ w.isAttached .main machine ∧ w.memory = memory ∧
        ∃ m, w.Runs machine m ∧ m.classes = classes := by
  obtain ⟨w, henter, hattached, hmemory, hruns⟩ :=
    (World.Runs.create ({ memory } : World σ) classes).enter .main
  exact passes_act henter ⟨rfl, hattached, hmemory, _, hruns, rfl⟩

theorem leads_benchmark {w : World σ} {m : Machine σ} {c : Context} (hruns : w.Runs c.machine m)
    (hclasses : m.classes = Class.benchmarks) (hattached : w.isAttached .main c.machine) :
    Leads c .benchmark w := ⟨hattached, m, hruns, Source.finds_benchmark hclasses⟩

/-- A comparator object leads to the ascending order, as the static comparator does. -/
theorem passes_newObject {w : World σ} {m : Machine σ} {frame : Nat}
    (hruns : w.Runs machine m) (hclasses : m.classes = Class.benchmarks)
    (hattached : w.isAttached .main machine) :
    Passes (act (newObject ⟨machine, frame⟩ ascendingClass)) w fun r w' =>
      Leads ⟨machine, frame⟩ .benchmark w' ∧ Leads ⟨machine, frame⟩ (.comparator r) w' := by
  have hclass : m.class? ascendingClass = some (.ascending ascendingClass) := by
    rw [Machine.class?, hclasses]
    rfl
  obtain ⟨r, w', m', hmade, hframe, hruns', hsame, hobject, hclasses', -⟩ :=
    hruns.newObject hclass frame
  have hattached' : w'.isAttached .main machine := by rwa [World.isAttached, hsame]
  rw [hclasses] at hclasses'
  refine passes_act hmade ⟨leads_benchmark hruns' hclasses' hattached', hattached', m', hruns', ?_⟩
  exact Source.finds_comparator hclasses' hframe hobject

/-! ### The checks that draw inputs -/

/-- The invariant of sorting one input after the other. -/
def SortsOn (c : Context) (r : LocalRef) (s : Sorts) (w : World Unit) : Prop :=
  s.statics.Serves c.machine .ascending ∧ s.instances.Serves c.machine .ascending ∧
    Leads c .benchmark w ∧ Leads c (.comparator r) w

theorem passes_sortTwice (c : Context) (r : LocalRef) (s : Sorts) (input : Nat × Arrangement)
    {w : World Unit} (h : SortsOn c r s w) : Passes (sortTwice c r s input) w (SortsOn c r) := by
  obtain ⟨hstatics, hinstances, hbenchmark, hcomparator⟩ := h
  refine (passes_sort hbenchmark hstatics _).bind ?_
  rintro ⟨a, statics⟩ w₁ ⟨rfl, hstatics, hlead₁, -⟩
  refine (passes_sort (hlead₁ _ hcomparator) hinstances _).bind ?_
  rintro ⟨b, instances⟩ w₂ ⟨rfl, hinstances, hlead₂, -⟩
  have hsorted : ∀ buffer, isSorted (ascendingWalk buffer).1 := fun buffer =>
    isSorted_of_ordered (ordered_ascendingWalk buffer)
  dsimp only
  rw [if_neg (by simp [hsorted])]
  exact passes_pure ⟨hstatics, hinstances, hlead₂ _ (hlead₁ _ hbenchmark),
    hlead₂ _ (hlead₁ _ hcomparator)⟩

theorem sortCorrectness_ok (seed : UInt64) : ∃ detail, (sortCorrectness seed).1 = .ok detail := by
  refine checkIn_of_passes (P := fun _ _ => True) ?_
  refine (passes_enter _ _).bind ?_
  rintro _ w₁ ⟨rfl, hattached, -, m, hruns, hclasses⟩
  refine (passes_newObject hruns hclasses hattached).bind ?_
  intro r w₂ ⟨hbenchmark, hcomparator⟩
  refine (passes_sort hbenchmark (Registry.serves_new _ _) _).bind ?_
  rintro ⟨sorted, statics⟩ w₃ ⟨rfl, hstatics, hlead, -⟩
  have hexample : (ascendingWalk #[5, 3, 3, -1, 0]).1 = #[-1, 0, 3, 3, 5] := by cbv
  dsimp only
  rw [if_neg (by simp [hexample])]
  have hstart : SortsOn ⟨machine, 1⟩ r ⟨statics, {}, .ofSeed seed, 1⟩ w₃ :=
    ⟨hstatics, Registry.serves_new _ _, hlead _ hbenchmark, hlead _ hcomparator⟩
  refine (passes_fold (fun s input _ h => passes_sortTwice _ r s input h) _ hstart).bind ?_
  intro s w₄ _
  exact passes_pure trivial

theorem passes_sortCounting (c : Context) (hc : c.machine = machine) (s : Calls) (length : Nat)
    {w : World Unit} (h : s.registry.Serves c.machine .ascending ∧ Leads c .benchmark w) :
    Passes (sortCounting c s length) w fun s w =>
      s.registry.Serves c.machine .ascending ∧ Leads c .benchmark w := by
  obtain ⟨hserves, hleads⟩ := h
  refine (passes_look _ (P := fun n w' => n = (w.counters machine).invocations ∧ w' = w)
    ⟨rfl, rfl⟩).bind ?_
  rintro _ _ ⟨rfl, rfl⟩
  refine (passes_sort hleads hserves _).bind ?_
  rintro ⟨sorted, registry⟩ w₁ ⟨-, hserves, hlead, hcount⟩
  refine (passes_look _ (P := fun n w' => n = (w₁.counters machine).invocations ∧ w' = w₁)
    ⟨rfl, rfl⟩).bind ?_
  rintro _ _ ⟨rfl, rfl⟩
  rw [hc] at hcount
  dsimp only
  rw [if_neg (by rw [hcount]; simp)]
  exact passes_pure ⟨hserves, hlead _ hleads⟩

theorem comparisonCountParity_ok (seed : UInt64) :
    ∃ detail, (comparisonCountParity seed).1 = .ok detail := by
  refine checkIn_of_passes (P := fun _ _ => True) ?_
  refine (passes_enter _ _).bind ?_
  rintro _ w₁ ⟨rfl, hattached, -, m, hruns, hclasses⟩
  refine (passes_fold (fun s length _ h => passes_sortCounting _ rfl s length h) _
    ⟨Registry.serves_new _ _, leads_benchmark hruns hclasses hattached⟩).bind ?_
  intro s w₂ _
  exact passes_pure trivial

/-- Answer in ascending order and note the pair of values. -/
def noting (a b : Int32) (pairs : Pairs) : Int32 × Pairs := (ascending a b, (a, b) :: pairs)

def notingBody : Body Pairs := .remembering fun q => noting q.leftValue q.rightValue

theorem reads_noting {ε : Type} : Reads ascending (ofValues noting : Comparer Pairs ε Int32) :=
  reads_ofValues fun _ _ _ => rfl

/-- All that is noted in a sort are pairs of values of the buffer. -/
theorem mem_of_noted (buffer : Array Int32) {pair : Int32 × Int32}
    (h : pair ∈ (byPosition (ε := Empty) (ofValues noting) buffer []).memory) :
    pair.1 ∈ (byPosition (ε := Empty) (ofValues noting) buffer []).buffer ∧
      pair.2 ∈ (byPosition (ε := Empty) (ofValues noting) buffer []).buffer := by
  let I (xs : Array Int32) (pairs : Pairs) : Prop :=
    xs.Perm buffer ∧ ∀ pair ∈ pairs, pair.1 ∈ buffer ∧ pair.2 ∈ buffer
  have hstart : I buffer [] := ⟨.refl _, by simp⟩
  have hexchange : ∀ i j xs pairs, I xs pairs → I (xs.swapIfInBounds i j) pairs :=
    fun i j xs pairs h => ⟨(swapIfInBounds_perm ..).trans h.1, h.2⟩
  let ask : Comparer Pairs Empty Int32 := ofValues noting
  have hcompare : ∀ left right xs pairs, left < xs.size → right < xs.size →
      I xs pairs → I xs (ask left right xs pairs).2 := by
    rintro left right xs pairs hl hr ⟨hperm, hpairs⟩
    refine ⟨hperm, ?_⟩
    intro pair hpair
    rcases List.mem_cons.1 hpair with rfl | hpair
    · rw [valueAt_of_lt hl, valueAt_of_lt hr]
      exact ⟨hperm.mem_iff.1 (xs.getElem_mem hl), hperm.mem_iff.1 (xs.getElem_mem hr)⟩
    · exact hpairs pair hpair
  have hend : I (byPosition ask buffer []).buffer (byPosition ask buffer []).memory :=
    (within_segment 0 buffer.size).follow_invariant hexchange hcompare hstart
  obtain ⟨hperm, hpairs⟩ := hend
  obtain ⟨h₁, h₂⟩ := hpairs pair h
  exact ⟨hperm.mem_iff.2 h₁, hperm.mem_iff.2 h₂⟩

theorem finds_noting {m : Machine Pairs} (h : m.classes = [recordingClass]) (frame : Nat) :
    Source.benchmark.Finds m frame notingBody := by
  refine ⟨rfl, ?_⟩
  rw [Source.benchmark, Machine.target?, Machine.body?, Machine.class?, h]
  rfl

/-- The recording comparator answers in ascending order, and every pair that it remembers is made of
values of the buffer. -/
theorem passes_sort_recording {w : World Pairs} {m : Machine Pairs} {frame : Nat}
    (hruns : w.Runs machine m) (hclasses : m.classes = [recordingClass]) (hmemory : w.memory = [])
    (buffer : Array Int32) :
    Passes (sort {} ⟨machine, frame⟩ .benchmark buffer) w fun out w' =>
      Ordered ascending out.1 ∧ ∀ pair ∈ w'.memory, pair.1 ∈ out.1 ∧ pair.2 ∈ out.1 := by
  obtain ⟨b, r, w', hbind, hmachine, hbody, -, -, -, hsame, hruns'⟩ :=
    Registry.bind_of_finds hruns (finds_noting hclasses frame) (Registry.serves_new _ _)
  have hfaultless : b.Faultless w' := by
    rw [← hmachine] at hruns'
    exact faultless_of_runs hruns'
  have hechoes : Echoes noting buffer.size (named bufferBase) notingBody.answer fun m _ => m :=
    echoes_plain fun _ _ _ => rfl
  obtain ⟨⟨hresult, hbuffer, hend⟩, -⟩ := @sort_of_echoes Pairs Pairs noting buffer []
    notingBody.answer (fun _ m _ => m) hechoes b .main w' (by rw [hbody]) hfaultless
    (hsame.trans hmemory)
  have htried : Passes (trySort {} ⟨machine, frame⟩ .benchmark buffer) w fun out w'' =>
      out = (.ok (), (byPosition (ε := Empty) (ofValues noting) buffer []).buffer, r) ∧
        w''.memory = (byPosition (ε := Empty) (ofValues noting) buffer []).memory := by
    refine ⟨_, _, trySort_of_sort (Registry.sort_of_bind hbind ..), ?_, hend⟩
    rw [hresult, hbuffer]
  refine htried.bind ?_
  rintro _ w'' ⟨rfl, hnoted⟩
  refine passes_pure ⟨byPosition_ordered isPreorder_ascending reads_noting, ?_⟩
  rw [hnoted]
  intro pair hpair
  exact mem_of_noted buffer hpair

theorem orderingConsistency_ok (seed : UInt64) :
    ∃ detail, (orderingConsistency seed).1 = .ok detail := by
  refine checkIn_of_passes (P := fun _ _ => True) ?_
  refine (passes_enter _ _).bind ?_
  rintro _ w₁ ⟨rfl, -, hmemory, m, hruns, hclasses⟩
  refine (passes_sort_recording hruns hclasses hmemory _).bind ?_
  rintro ⟨sorted, registry⟩ w₂ ⟨hordered, hpairs⟩
  refine (passes_look _ (P := fun pairs _ => pairs = w₂.memory.reverse) rfl).bind ?_
  rintro _ w₃ rfl
  dsimp only
  split
  · next a b hfind =>
    obtain ⟨hmem, hne⟩ := List.mem_filter.1 (List.mem_of_find?_eq_some hfind)
    obtain ⟨ha, hb⟩ := hpairs _ (List.mem_reverse.1 (everyThird_subset _ hmem))
    have hwrong := List.find?_some hfind
    simp [inOrder_of_ordered hordered ha hb (by simpa using hne)] at hwrong
  · exact passes_pure trivial

theorem disjointSorts_ok (secondFirst : Bool) (seed : UInt64) :
    ∃ detail, (disjointSorts secondFirst seed).1 = .ok detail := by
  refine checkIn_of_passes (P := fun _ _ => True) ?_
  refine (passes_enter _ _).bind ?_
  rintro _ w₁ ⟨rfl, hattached, -, m, hruns, hclasses⟩
  refine (passes_bind (leads_benchmark hruns hclasses hattached) (Registry.serves_new _ _)).bind ?_
  rintro ⟨b, registry⟩ w₂ ⟨hbody, hfaultless⟩
  refine (passes_both (I := b.Faultless)
    (fun w h => passes_trySortBound hbody h (.worker 1) .random 100 seed)
    (fun w h => passes_trySortBound hbody h (.worker 2) .random 100 (otherSeed seed))
    secondFirst hfaultless).bind ?_
  rintro ⟨_, _⟩ w₃ ⟨rfl, rfl⟩
  have hlength : min 100 maxInput = 100 := by decide
  dsimp only
  rw [hlength, if_neg (by simp)]
  exact passes_pure trivial

/-! ### The race for a binding -/

/-- The runtime of the check has the benchmark's classes, and nothing was resolved in it yet. -/
def Unresolved (w : World Unit) : Prop :=
  ∃ m, w.Runs machine m ∧ m.classes = Class.benchmarks ∧ m.counters.globalRefsCreated = 0 ∧
    m.counters.methodLookups = 0

/-- The invariant of attaching one thread after the other. -/
def Arrived (contexts : Nat → Context) (w : World Unit) : Prop :=
  (∀ i, (contexts i).machine = machine) ∧ Unresolved w

theorem passes_arrive {contexts : Nat → Context} {w : World Unit} (h : Arrived contexts w)
    (n : Nat) : Passes (arrive contexts n) w Arrived := by
  obtain ⟨hmachine, m, hruns, hclasses, hreferences, hlookups⟩ := h
  obtain ⟨w', henter, -, -, hruns'⟩ := hruns.enter (.worker n)
  have hw' : Unresolved w' := by
    refine ⟨_, hruns', hclasses, ?_, ?_⟩
    · cases w.isAttached (.worker n) machine <;> exact hreferences
    · cases w.isAttached (.worker n) machine <;> exact hlookups
  refine (passes_act (P := fun c w' => c.machine = machine ∧ Unresolved w') henter
    ⟨rfl, hw'⟩).bind ?_
  rintro c w' ⟨hc, hw'⟩
  refine passes_pure ⟨fun i => ?_, hw'⟩
  dsimp only
  split
  · exact hc
  · exact hmachine i

/-- Whoever resolves first comes to the same binding, with one look for the method and one
reference. -/
theorem Arrived.establish {contexts : Nat → Context} {w : World Unit} (h : Arrived contexts w) :
    ∃ b w', (∀ i, Registry.establish (contexts i) .benchmark w = (.ok b, w')) ∧
      (w'.counters machine).globalRefsCreated = 1 ∧ (w'.counters machine).methodLookups = 1 := by
  obtain ⟨hmachine, m, hruns, hclasses, hreferences, hlookups⟩ := h
  let w' : World Unit := (w.count machine .countResolution).notify (.level .info)
    "binding_established" (Registry.establishedFields .benchmark)
  have hruns' : w'.Runs machine (m.count .countResolution) := (hruns.count _).notify ..
  let b : Binding Unit := ⟨machine, m.counters.globalRefsCreated, Source.benchmark.variant,
    Source.benchmark.method, .ascending⟩
  refine ⟨b, w', fun i => ?_, ?_⟩
  · have hcontext : contexts i = ⟨machine, (contexts i).frame⟩ := by rw [← hmachine i]
    rw [hcontext]
    exact establish_of_finds hruns (Source.finds_benchmark hclasses)
  · rw [hruns'.counters]
    exact ⟨congrArg (· + 1) hreferences, congrArg (· + 1) hlookups⟩

theorem allSame_replicate (b : Binding Unit) (n : Nat) : allSame (List.replicate n b) = true := by
  have hsame : b.isSame b = true := by simp [Binding.isSame]
  induction n with
  | zero => rfl
  | succ n ih =>
    cases n with
    | zero => rfl
    | succ n => simpa [List.replicate_succ, allSame, hsame] using ih

/-- The threads come to one binding in whatever order they attach and take their turns. -/
theorem exactlyOnceBinding_ok (race : Race) (seed : UInt64) :
    ∃ detail, (exactlyOnceBinding race seed).1 = .ok detail := by
  refine checkIn_of_passes (P := fun _ _ => True) ?_
  have hstart : Arrived (fun _ => default)
      (({ memory := () } : World Unit).create Class.benchmarks) :=
    ⟨fun _ => rfl, _, World.Runs.create _ _, rfl, rfl, rfl⟩
  refine (passes_fold (fun _ n _ h => passes_arrive h n) race.arrivals hstart).bind ?_
  intro contexts w hcontexts
  obtain ⟨b, w', hestablish, hreferences, hlookups⟩ := hcontexts.establish
  have hturns : race.turns.map (·.val) ⊆ List.range racers := by
    intro n hn
    obtain ⟨i, -, rfl⟩ := List.mem_map.1 hn
    exact List.mem_range.2 i.isLt
  have hthreads : List.range racers ≠ [] := by decide
  refine (passes_contend hestablish hthreads hturns).bind ?_
  rintro _ w' ⟨rfl, rfl⟩
  have hbound : ((List.range racers).map fun _ => (.ok b : Except Failure _)).mapM id =
      .ok (List.replicate racers b) := rfl
  rw [hbound]
  dsimp only
  rw [allSame_replicate]
  refine (passes_look _ (P := fun n w'' => n = w'.counters machine ∧ w'' = w') ⟨rfl, rfl⟩).bind ?_
  rintro _ _ ⟨rfl, rfl⟩
  rw [if_neg (by simp [hreferences, hlookups])]
  exact passes_pure trivial

/-! ### The other checks that draw no input -/

theorem idempotentBinding_ok (seed : UInt64) :
    ∃ detail, (idempotentBinding seed).1 = .ok detail := ⟨_, rfl⟩

theorem resolutionFailure_ok (seed : UInt64) :
    ∃ detail, (resolutionFailure seed).1 = .ok detail := ⟨_, rfl⟩

theorem attachmentFailure_ok (seed : UInt64) :
    ∃ detail, (attachmentFailure seed).1 = .ok detail := by
  refine ⟨"attachment error surfaced", ?_⟩
  cbv

theorem check_ok {p : Property} (hp : p ∈ all) (seed : UInt64) :
    ∃ detail, (p.check seed).1 = .ok detail := by
  simp only [all, List.mem_cons, List.not_mem_nil, or_false] at hp
  rcases hp with rfl | rfl | rfl | rfl | rfl | rfl | rfl | rfl
  · exact sortCorrectness_ok seed
  · exact comparisonCountParity_ok seed
  · exact idempotentBinding_ok seed
  · exact orderingConsistency_ok seed
  · exact disjointSorts_ok false seed
  · exact exactlyOnceBinding_ok {} seed
  · exact resolutionFailure_ok seed
  · exact attachmentFailure_ok seed

end Property

/-! ### All verdicts -/

@[simp] theorem Verdict.property_ofCheck (name : String) (result : Except String String) :
    (ofCheck name result).property = name := by
  cases result <;> rfl

/-- Verdicts that all pass are counted as passed, and give no error. -/
theorem Summary.ofVerdicts_of_passed {vs : List Verdict} (h : ∀ v ∈ vs, v.passed) :
    (ofVerdicts vs).passed = vs.length ∧ (ofVerdicts vs).failed = 0 ∧
      (ofVerdicts vs).ensurePassed = .ok () := by
  have hfilter : vs.filter (·.passed) = vs := List.filter_eq_self.2 h
  have hfind : vs.find? (!·.passed) = none := List.find?_eq_none.2 fun v hv => by simp [h v hv]
  refine ⟨?_, ?_, ?_⟩
  · simp [ofVerdicts, hfilter]
  · simp [ofVerdicts, hfilter]
  · simp [ensurePassed, ofVerdicts, hfind]

theorem passed_of_mem_verify {ps : List Property} {seed : UInt64}
    (h : ∀ p ∈ ps, ∃ detail, (p.check seed).1 = .ok detail) :
    ∀ v ∈ (verify ps seed).1.verdicts, v.passed := by
  intro v hv
  simp only [verify, Summary.ofVerdicts, List.map_map, List.mem_map, Function.comp_apply] at hv
  obtain ⟨p, hp, rfl⟩ := hv
  obtain ⟨detail, hdetail⟩ := h p hp
  rw [hdetail]
  rfl

/-- Every property is reported as passed, whatever the seed, whichever of two concurrent sorts comes
first, and in whatever order racing threads attach and take their turns. -/
theorem verifyAll_passes (seed : UInt64) :
    let summary := (verifyAll seed).1
    (∀ p ∈ Property.all, ∃ detail, (p.check seed).1 = .ok detail) ∧
      (∀ secondFirst, ∃ detail, (Property.disjointSorts secondFirst seed).1 = .ok detail) ∧
      (∀ race, ∃ detail, (Property.exactlyOnceBinding race seed).1 = .ok detail) ∧
      summary.verdicts.map (·.property) = Property.all.map (·.name) ∧
      (∀ v ∈ summary.verdicts, v.passed) ∧
      summary.total = 8 ∧ summary.passed = 8 ∧ summary.failed = 0 ∧ summary.allPassed ∧
      summary.ensurePassed = .ok () := by
  intro summary
  have hchecks : ∀ p ∈ Property.all, ∃ detail, (p.check seed).1 = .ok detail := fun p hp =>
    Property.check_ok hp seed
  have hverdicts : ∀ v ∈ summary.verdicts, v.passed := passed_of_mem_verify hchecks
  obtain ⟨hpassed, hfailed, hensured⟩ := Summary.ofVerdicts_of_passed hverdicts
  refine ⟨hchecks, fun secondFirst => Property.disjointSorts_ok secondFirst seed,
    fun race => Property.exactlyOnceBinding_ok race seed, ?_, hverdicts, rfl, hpassed, hfailed, ?_,
    hensured⟩
  · simp [summary, verifyAll, verify, Summary.ofVerdicts, Function.comp_def]
  · exact decide_eq_true hfailed

end CallBridge.Check
