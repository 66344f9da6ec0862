import CallBridge.Proofs.Bench.Calls
import Mathlib.Algebra.Order.Ring.Nat
import Mathlib.Data.List.Permutation

/-!
# The accounts of a benchmark

Every measurement makes the same number of calls, `Plan.repetitions`: those to warm up, a counted
one, and those of its samples. So the tally after a run is the one that so many calls of every pair
lead to (`yields_measureAll`), and its sums over shapes and lengths are the counts of the runtime.
`run_accounts` states them for every plan, on every host that obliges.
-/

namespace CallBridge.Bench
open Bridge Managed CallBridge.Bench.Task

variable {σ : Type}

namespace Plan

/-- How many calls a measurement of a shape that asks managed code makes. -/
def repetitions (p : Plan) : Nat := p.sizing.warmup + 1 + p.sizing.samples * p.sizing.calls

/-- How many questions a sort asks at a length. -/
def questions (p : Plan) (length : Nat) : Nat :=
  Sort.ascendingCalls (generate p.input length p.seed)

/-- What a measurement tells of the questions that a call asks. -/
def bridgeCalls (p : Plan) (shape : CallShape) (length : Nat) : Option Binary64 :=
  if shape.isBridged then some (.ofNat (p.questions length)) else none

end Plan

/-- The tally after a pair was measured. -/
def Tally.measured (p : Plan) (k : Tally) (pair : CallShape × Nat) : Tally :=
  Tally.calls { k with entered := true } pair.1 (p.questions pair.2) p.repetitions

/-! ### One measurement -/

section
variable {t : Trial} {b : Workbench σ} {m : Machine σ} {k : Tally}

/-- The log and the diagnostics announced are no part of how a workbench stands. -/
theorem Workbench.Stands.of_log (h : b.Stands m k) (log : Option Log.Emitter) (announced : Nat) :
    Workbench.Stands { b with log, announced } m k :=
  ⟨h.runs, h.classes, h.counters, h.entered, h.statics, h.instances, h.staticServes,
    h.instanceServes, h.patterns⟩

theorem yields_takeSamples (h : t.Ready b k) (bytes calls n : Nat) (taken : List Binary64) :
    Yields bytes (takeSamples calls n t taken) b fun _ b' =>
      ∃ t', t.After t' b' (k.calls t.shape (Sort.ascendingCalls t.input) (n * calls)) := by
  induction n generalizing t b k taken with
  | zero =>
    rw [Nat.zero_mul]
    exact yields_pure ⟨t, rfl, rfl, h⟩
  | succ n ih =>
    refine yields_reading.bind ?_
    rintro start b rfl
    refine (h.calls bytes calls).bind ?_
    intro t₁ b₁ hafter
    refine yields_reading.bind ?_
    rintro stop b₁ rfl
    refine (ih hafter.ready _).mono ?_
    rintro _ b₂ ⟨t₂, hafter'⟩
    rw [hafter.shape, hafter.input, ← Tally.calls_add, Nat.add_comm, ← Nat.succ_mul] at hafter'
    exact ⟨t₂, hafter.trans hafter'⟩

/-- The counted call of a shape that asks managed code tells how many questions it asked. -/
theorem yields_countCalls (h : t.Ready b k) (bytes : Nat) :
    Yields bytes (countCalls t) b fun out b' =>
      out.1 = (if t.shape.isBridged then some (.ofNat (Sort.ascendingCalls t.input)) else none) ∧
        t.After out.2 b' (k.calls t.shape (Sort.ascendingCalls t.input) 1) := by
  unfold countCalls
  cases hbridged : t.shape.isBridged with
  | false =>
    rw [Tally.calls_of_not_bridged _ _ _ hbridged]
    exact yields_pure ⟨rfl, rfl, rfl, h⟩
  | true =>
    obtain ⟨m, hstands⟩ := h.2.imp fun _ h => h.1
    refine (yields_look _ (P := fun before b' => before = k.asked ∧ b' = b) ⟨?_, rfl⟩).bind ?_
    · rw [hstands.counters_eq]
      rfl
    rintro _ b ⟨rfl, rfl⟩
    refine (h.calls bytes 1).bind ?_
    intro t' b' hafter
    obtain ⟨m', hstands'⟩ := hafter.ready.2.imp fun _ h => h.1
    refine (yields_look _ (P := fun after b'' =>
      after = k.asked + Sort.ascendingCalls t.input ∧ b'' = b') ⟨?_, rfl⟩).bind ?_
    · rw [hstands'.counters_eq, Tally.calls_succ, hbridged]
      simp [Tally.counters]
    rintro _ b' ⟨rfl, rfl⟩
    refine yields_pure ⟨?_, hafter⟩
    simp

/-- The measurement is of this pair and tells what a call of it asks. -/
structure Plan.Measures (p : Plan) (pair : CallShape × Nat) (result : Measurement) : Prop where
  pair : (result.shape, result.length) = pair
  bridgeCalls : result.bridgeCalls = p.bridgeCalls result.shape result.length

variable {p : Plan}

theorem yields_measure (hb : b.Stands m k) (hsamples : 0 < p.sizing.samples)
    (hcalls : 0 < p.sizing.calls) (shape : CallShape) (length : Nat) :
    Yields (sampleBytes * p.sizing.samples) (measure p shape length) b fun result b' =>
      p.Measures (shape, length) result ∧ ∃ m', b'.Stands m' (k.measured p (shape, length)) := by
  rw [measure, if_neg (by omega)]
  refine (Trial.yields_prepare hb _ shape length p.input p.seed).bind ?_
  rintro t b₁ ⟨rfl, hinput, hready⟩
  refine (hready.calls _ p.sizing.warmup).bind ?_
  intro t₁ b₁ hwarm
  refine (yields_countCalls hwarm.ready _).bind ?_
  rintro ⟨bridgeCalls, t₂⟩ b₂ ⟨hcount, hcounted⟩
  refine yields_reserve.bind ?_
  rintro _ b₂ rfl
  refine (yields_takeSamples hcounted.ready _ p.sizing.calls p.sizing.samples []).bind ?_
  rintro samples b₃ ⟨t₃, hsampled⟩
  -- The calls to warm up, the counted one and those of the samples make one tally.
  rw [hwarm.shape, hwarm.input, hinput] at hcount hcounted
  rw [hcounted.shape, hcounted.input, hwarm.shape, hwarm.input, hinput, ← Tally.calls_add,
    ← Tally.calls_add, ← Nat.add_assoc] at hsampled
  obtain ⟨-, m', hstands, -⟩ := hsampled.ready
  exact yields_pure ⟨⟨rfl, hcount⟩, m', hstands⟩

theorem yields_logMeasurement (bytes start : Nat) (result : Measurement) :
    Yields bytes (logMeasurement p start result) b fun _ b' => ∃ log, b' = { b with log } := by
  refine (yields_look _ (P := fun log b' => log = b.log ∧ b' = b) ⟨rfl, rfl⟩).bind ?_
  rintro _ b ⟨rfl, rfl⟩
  cases b.log with
  | none => exact yields_pure ⟨b.log, rfl⟩
  | some log =>
    refine yields_wallTime.bind ?_
    rintro now b rfl
    refine yields_reading.bind ?_
    rintro stop b rfl
    refine (yields_write _ _).mono ?_
    rintro _ _ ⟨log', rfl⟩
    exact ⟨some log', rfl⟩

theorem yields_measureAndLog (hb : b.Stands m k) (hsamples : 0 < p.sizing.samples)
    (hcalls : 0 < p.sizing.calls) (shape : CallShape) (length : Nat) :
    Yields (sampleBytes * p.sizing.samples) (measureAndLog p shape length) b fun result b' =>
      p.Measures (shape, length) result ∧ ∃ m', b'.Stands m' (k.measured p (shape, length)) := by
  refine yields_reading.bind ?_
  rintro start b rfl
  refine (yields_measure hb hsamples hcalls shape length).attempt.bind ?_
  rintro _ b₁ ⟨result, rfl, hmeasures, m', hstands⟩
  refine yields_announce.bind ?_
  rintro _ _ rfl
  refine (yields_logMeasurement _ start result).bind ?_
  rintro _ _ ⟨log, rfl⟩
  exact yields_pure ⟨hmeasures, m', hstands.of_log log _⟩

/-- Each pair is measured once, in its turn, and the tallies add up. -/
theorem yields_measureAll (hb : b.Stands m k) (hsamples : 0 < p.sizing.samples)
    (hcalls : 0 < p.sizing.calls) (pairs : List (CallShape × Nat)) (made : List Measurement) :
    Yields (sampleBytes * p.sizing.samples) (measureAll p pairs made) b fun results b' =>
      (∃ added, results = made.reverse ++ added ∧
        added.map (fun r => (r.shape, r.length)) = pairs ∧
          ∀ r ∈ added, r.bridgeCalls = p.bridgeCalls r.shape r.length) ∧
        ∃ m', b'.Stands m' (pairs.foldl (Tally.measured p) k) := by
  induction pairs generalizing b m k made with
  | nil => exact yields_pure ⟨⟨[], by simp, rfl, by simp⟩, m, hb⟩
  | cons pair rest ih =>
    refine (yields_measureAndLog hb hsamples hcalls pair.1 pair.2).bind ?_
    rintro result b₁ ⟨hmeasures, m₁, hstands⟩
    refine (ih hstands (result :: made)).mono ?_
    rintro results b₂ ⟨⟨added, rfl, hpairs, hadded⟩, hstands'⟩
    refine ⟨⟨result :: added, by simp, ?_, ?_⟩, hstands'⟩
    · rw [List.map_cons, hpairs, hmeasures.pair]
    · rintro r hr
      rcases List.mem_cons.1 hr with rfl | hr
      · exact hmeasures.bridgeCalls
      · exact hadded r hr

end

/-! ### Sums over the pairs -/

section
variable (p : Plan) (k : Tally)

/-- What so many calls of every pair come to. -/
theorem foldl_measured (pairs : List (CallShape × Nat)) :
    pairs.foldl (Tally.measured p) k =
      { entered := k.entered || !pairs.isEmpty
        statics := k.statics || pairs.any (·.1 = .qsortStatic)
        instances := k.instances || pairs.any (·.1 = .qsortInstance)
        fresh := k.fresh + p.repetitions * pairs.countP (·.1 = .qsortFresh)
        asked := k.asked + p.repetitions *
          (pairs.map fun pair => if pair.1.isBridged then p.questions pair.2 else 0).sum } := by
  have hrepetitions : p.repetitions = (p.sizing.warmup + p.sizing.samples * p.sizing.calls) + 1 := by
    unfold Plan.repetitions
    omega
  induction pairs generalizing k with
  | nil => simp
  | cons pair rest ih =>
    rw [List.foldl_cons, ih, Tally.measured, hrepetitions, Tally.calls_succ, ← hrepetitions,
      List.countP_cons, List.map_cons, List.sum_cons, Nat.mul_add, Nat.mul_add]
    simp only [Bool.true_or, List.isEmpty_cons, Bool.not_false, Bool.or_true, List.any_cons,
      Bool.or_assoc, Tally.mk.injEq, true_and, decide_eq_true_eq]
    constructor <;> omega

/-- The lengths at which a shape that asks managed code is measured are those of the plan. -/
theorem lengthsFor_of_bridged {shape : CallShape} (h : shape.isBridged) :
    p.lengthsFor shape = p.lengths := by
  cases shape <;> first | rfl | cases h

theorem any_pairs (hlengths : p.lengths ≠ []) {shape : CallShape} (h : shape.isBridged) :
    p.pairs.any (·.1 = shape) = p.shapes.contains shape := by
  rw [Bool.eq_iff_iff, List.any_eq_true, List.contains_iff_mem]
  constructor
  · rintro ⟨pair, hpair, hshape⟩
    obtain ⟨shape', hmem, hpair⟩ := List.mem_flatMap.1 hpair
    obtain ⟨n, -, rfl⟩ := List.mem_map.1 hpair
    obtain rfl : shape' = shape := of_decide_eq_true hshape
    exact hmem
  · intro hmem
    obtain ⟨n, hn⟩ := List.exists_mem_of_ne_nil _ hlengths
    refine ⟨(shape, n), List.mem_flatMap.2 ⟨shape, hmem, List.mem_map.2 ⟨n, ?_, rfl⟩⟩, by simp⟩
    rwa [lengthsFor_of_bridged p h]

theorem countP_pairs : p.pairs.countP (·.1 = .qsortFresh) =
    p.shapes.count .qsortFresh * p.lengths.length := by
  unfold Plan.pairs
  induction p.shapes with
  | nil => simp
  | cons shape rest ih =>
    rw [List.flatMap_cons, List.countP_append, ih, List.count_cons, Nat.add_mul, Nat.add_comm]
    by_cases h : shape = .qsortFresh
    · subst h
      rw [lengthsFor_of_bridged p rfl]
      simp [List.countP_map, Function.comp_def]
    · simp [List.countP_map, Function.comp_def, h]

theorem sum_pairs :
    (p.pairs.map fun pair => if pair.1.isBridged then p.questions pair.2 else 0).sum =
      p.shapes.countP (·.isBridged) * (p.lengths.map p.questions).sum := by
  unfold Plan.pairs
  induction p.shapes with
  | nil => simp
  | cons shape rest ih =>
    rw [List.flatMap_cons, List.map_append, List.sum_append, ih, List.countP_cons, Nat.add_mul,
      Nat.add_comm]
    cases h : shape.isBridged with
    | true =>
      rw [lengthsFor_of_bridged p h]
      simp [Function.comp_def, h]
    | false => simp [Function.comp_def, h, List.map_const']

/-- What the runtime has counted after the plan: a resolution for each registry that is used and for
each sort with a binding of its own, and every question of every call. -/
def Plan.accounts : Counters :=
  let held := (p.shapes.contains .qsortStatic).toNat + (p.shapes.contains .qsortInstance).toNat
  let resolved := held + p.repetitions * (p.shapes.count .qsortFresh * p.lengths.length)
  let asked := p.repetitions *
    (p.shapes.countP (·.isBridged) * (p.lengths.map p.questions).sum)
  { handleRequests := resolved
    methodLookups := resolved
    globalRefsCreated := resolved
    liveGlobalRefs := held
    attachChecks := asked
    attachments := 1
    invocations := asked }

theorem counters_foldl_measured (hshapes : p.shapes ≠ []) (hlengths : p.lengths ≠ []) :
    (p.pairs.foldl (Tally.measured p) {}).counters = p.accounts := by
  have hpairs : p.pairs.isEmpty = false := by
    obtain ⟨shape, hshape⟩ := List.exists_mem_of_ne_nil _ hshapes
    have hnonempty : (p.lengthsFor shape).map (fun n => (shape, n)) ≠ [] := by
      cases shape <;> simp [Plan.lengthsFor, CallShape.takesLength, hlengths]
    rw [List.isEmpty_eq_false_iff]
    intro hempty
    exact hnonempty (List.flatMap_eq_nil_iff.1 hempty shape hshape)
  rw [foldl_measured, any_pairs p hlengths rfl, any_pairs p hlengths rfl, countP_pairs, sum_pairs,
    hpairs]
  simp [Tally.counters, Tally.held, Plan.accounts]

end

/-! ### A whole run -/

/-- A plan that measures something is carried out on every host that grants the memory of its samples
and takes the lines of its log: each pair has its measurement, which tells the questions that a call
asks, and the runtime has counted what the plan comes to. -/
theorem run_accounts (p : Plan) (log : Option Log.Emitter) (h : Host) (hshapes : p.shapes ≠ [])
    (hlengths : p.lengths ≠ []) (hsamples : 0 < p.sizing.samples) (hcalls : 0 < p.sizing.calls)
    (hhost : h.Obliges (sampleBytes * p.sizing.samples)) :
    ∃ results b h', (run p { Workbench.standard with log }).run h = ((.ok results, b), h') ∧
      results.map (fun r => (r.shape, r.length)) = p.pairs ∧
      (∀ r ∈ results, r.bridgeCalls =
        if r.shape.isBridged then some (.ofNat (p.questions r.length)) else none) ∧
      b.counters = p.accounts := by
  have hyields := yields_measureAll (stands_standard log) hsamples hcalls p.pairs []
  obtain ⟨results, b, h', hrun, -, ⟨added, rfl, hpairs, hadded⟩, m, hstands⟩ := hyields h hhost
  refine ⟨_, b, h', ?_, hpairs, hadded, ?_⟩
  · rw [run, if_neg (by simp [hshapes, hlengths])]
    exact hrun
  · rw [hstands.counters_eq, counters_foldl_measured p hshapes hlengths]

/-- A repeated shape, one that sorts with bindings of its own, and one that asks nothing. -/
theorem run_accounts_descending :
    let p : Plan := {
      shapes := [.qsortStatic, .noop, .qsortFresh, .qsortStatic]
      lengths := [3, 0]
      input := .descending
      sizing := ⟨2, 2, 3⟩ }
    let h : Host := { wall := { seconds := 1700000000 }, clock := { ticks := #[1000] } }
    ∃ results b h', (run p { Workbench.standard with log := none }).run h = ((.ok results, b), h') ∧
      results.map (fun r => (r.shape, r.length)) = [(.qsortStatic, 3), (.qsortStatic, 0), (.noop, 0),
        (.qsortFresh, 3), (.qsortFresh, 0), (.qsortStatic, 3), (.qsortStatic, 0)] ∧
      b.counters = ⟨19, 19, 19, 1, 54, 1, 54⟩ := by
  intro p h
  obtain ⟨results, b, h', hrun, hpairs, -, hcounters⟩ := run_accounts p none h (by decide)
    (by decide) (by decide) (by decide) ⟨rfl, fun _ h => by cases h⟩
  refine ⟨results, b, h', hrun, hpairs, hcounters.trans ?_⟩
  have hinput (n : Nat) (h : n ≤ 3) : generate .descending n p.seed = (upward n).reverse := by
    have hmax : n ≤ maxInput := Nat.le_trans h (by decide)
    rw [generate, Nat.min_eq_left hmax]
  have hthree : p.questions 3 = 2 := by
    have hbuffer : (upward 3).reverse = #[2, 1, 0] := by simp [upward, Array.range_succ]
    change Sort.ascendingCalls (generate .descending 3 p.seed) = 2
    rw [hinput 3 (by decide), hbuffer]
    cbv
  have hzero : p.questions 0 = 0 := by
    have hbuffer : (upward 0).reverse = #[] := by simp [upward]
    change Sort.ascendingCalls (generate .descending 0 p.seed) = 0
    rw [hinput 0 (by decide), hbuffer]
    cbv
  have hrepetitions : p.repetitions = 9 := rfl
  rw [Plan.accounts, hrepetitions]
  simp [p, hthree, hzero, CallShape.isBridged]

/-- Samples are kept in one piece, and one of so many has no address. -/
theorem run_unaddressable :
    let p : Plan := {
      shapes := [.noop]
      lengths := [0]
      seed := 1
      sizing := ⟨0, 2 ^ 60, 1⟩ }
    let h : Host := { wall := { seconds := 1700000000 }, clock := { ticks := #[1] } }
    p.shapes ≠ [] ∧ p.lengths ≠ [] ∧ 0 < p.sizing.samples ∧ 0 < p.sizing.calls ∧
      ((run p Workbench.standard).run h).1.1 = .error (.memory .unaddressable) :=
  ⟨by decide, by decide, by decide, by decide, rfl⟩

end CallBridge.Bench
