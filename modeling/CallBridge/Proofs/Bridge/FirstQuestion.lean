import CallBridge.Proofs.Bridge.Attempts

/-!
# Faults and the first question

A fault of attaching or invoking is met by every question, so a sort through a binding fails at its
first one or not at all. By then the pivot is parked: the first element and the middle one have
changed places. A sort of fewer than two elements asks nothing and fails under no fault.
-/

namespace CallBridge.Managed
variable {σ : Type}

theorem World.memory_asked (w : World σ) (thread : Thread) (id n : Nat) :
    (w.asked thread id n).memory = w.memory := by
  cases n with
  | zero => rfl
  | succ n =>
    rw [asked]
    split
    · rfl
    · rw [countQuestions, joined]
      split <;> rfl

end CallBridge.Managed

namespace CallBridge.Bridge
open Managed

variable {σ : Type}

namespace Binding
variable {b : Binding σ} {w : World σ}

/-- A fault is in the way of every question. -/
def Hindered (b : Binding σ) (w : World σ) : Prop :=
  w.faulty b.machine .attach = true ∨ w.faulty b.machine .invoke = true

theorem not_hindered_iff : ¬ b.Hindered w ↔ b.Faultless w := by
  rw [Hindered, not_or, Bool.not_eq_true, Bool.not_eq_true]
  exact ⟨fun ⟨hattach, hinvoke⟩ => ⟨hattach, hinvoke⟩, fun h => ⟨h.attach, h.invoke⟩⟩

/-- The failure of a question with a fault in its way: to attach comes first. -/
def hindrance (b : Binding σ) (thread : Thread) (w : World σ) : Failure :=
  if w.faulty b.machine .attach then .attachRefused (World.runtimeNumber b.machine) thread.name
  else .thrown

theorem Hindered.invoke_eq (h : b.Hindered w) (thread : Thread) (q : Question) :
    b.invoke thread q w = (.error (b.hindrance thread w), w.asked thread b.machine 1) := by
  have hreply : reply b.machine thread b.body q w = (.error (b.hindrance thread w), w.memory) := by
    rw [reply, hindrance]
    split
    · rfl
    · next hattach => rw [if_pos (h.resolve_left hattach)]
  -- the reply leaves the memory as it is, so the question changed what is counted and nothing else
  obtain ⟨hresult, hmemory⟩ := Prod.ext_iff.1 ((b.invoke_reply thread q w).trans hreply)
  obtain ⟨memory, hasked⟩ := b.invoke_asked thread q w
  obtain rfl : memory = w.memory := by
    rw [hasked] at hmemory
    exact hmemory
  refine Prod.ext hresult (hasked.trans ?_)
  rw [← w.memory_asked thread b.machine 1]

theorem Hindered.sort_eq (h : b.Hindered w) (thread : Thread) {buffer : Array Int32}
    (hsize : 2 ≤ buffer.size) : b.sort thread (.whole buffer) buffer w =
      ⟨.error (b.hindrance thread w), buffer.swapIfInBounds 0 (buffer.size / 2),
        w.asked thread b.machine 1⟩ := by
  obtain ⟨next, hnext⟩ := @Sort.segment_of_two_le 0 _ hsize
  rw [sort, Segment.whole, hnext]
  simp only [DecisionTree.follow, comparer, h.invoke_eq, Nat.zero_add]

theorem Hindered.length_calls (h : b.Hindered w) (thread : Thread) {buffer : Array Int32}
    (hsize : 2 ≤ buffer.size) : (Sort.calls (b.comparer thread) buffer w).length = 1 := by
  obtain ⟨next, hnext⟩ := @Sort.segment_of_two_le 0 _ hsize
  rw [Sort.calls, hnext, DecisionTree.inquiries_exchange, DecisionTree.inquiries_compare]
  simp only [comparer, h.invoke_eq, List.length_singleton]

/-- A walk that no fault stands in the way of comes to its end. -/
theorem Faultless.exists_result {ρ : Type} (h : b.Faultless w) (thread : Thread)
    (t : DecisionTree ρ) (buffer : Array Int32) :
    ∃ r, (t.follow (b.comparer thread) buffer w).result = .ok r := by
  induction t generalizing buffer w with
  | done r => exact ⟨r, rfl⟩
  | exchange i j next ih => exact ih h _
  | compare left right next ih =>
    obtain ⟨w', hreply, -, hw'⟩ := h.invoke_eq thread (question left right buffer)
    simp only [DecisionTree.follow, comparer, hreply]
    exact ih _ hw' _

theorem sort_of_lt_two (b : Binding σ) (thread : Thread) {buffer : Array Int32}
    (h : buffer.size < 2) (w : World σ) :
    b.sort thread (.whole buffer) buffer w = ⟨.ok (), buffer, w⟩ := by
  rw [sort, Segment.whole, Sort.segment_of_le_one (Nat.le_of_lt_succ h)]
  rfl

theorem sort_fails_iff (b : Binding σ) (thread : Thread) (buffer : Array Int32) (w : World σ) :
    (∃ f, (b.sort thread (.whole buffer) buffer w).result = .error f) ↔
      2 ≤ buffer.size ∧ b.Hindered w := by
  constructor
  · rintro ⟨f, hf⟩
    by_contra hnot
    rcases Nat.lt_or_ge buffer.size 2 with hsize | hsize
    · rw [b.sort_of_lt_two thread hsize] at hf
      cases hf
    · have hfaultless := not_hindered_iff.1 fun h => hnot ⟨hsize, h⟩
      obtain ⟨r, hr⟩ := hfaultless.exists_result thread (Sort.segment 0 buffer.size) buffer
      cases hf.symm.trans hr
  · rintro ⟨hsize, h⟩
    rw [h.sort_eq thread hsize]
    exact ⟨_, rfl⟩

end Binding

/-- A sort ended with its first question, in this failure: the question was counted and the pivot
parked, but the method was not called. -/
structure Stopped (b : Binding σ) (thread : Thread) (buffer : Array Int32) (w : World σ)
    (f : Failure) (sorted : Sorted σ) : Prop where
  once : (Sort.calls (b.comparer thread) buffer w).length = 1
  parked : sorted.buffer = buffer.swapIfInBounds 0 (buffer.size / 2)
  memory : sorted.memory.memory = w.memory
  uncalled : ∀ body, ({ b with body } : Binding σ).sort thread (.whole buffer) buffer w = sorted
  refused : w.faulty b.machine .attach = true →
    f = .attachRefused (World.runtimeNumber b.machine) thread.name ∧
      sorted.memory.attached = w.attached ∧ sorted.memory.counters b.machine =
        { w.counters b.machine with attachChecks := (w.counters b.machine).attachChecks + 1 }
  thrown : w.faulty b.machine .attach = false →
    f = .thrown ∧ sorted.memory.isAttached thread b.machine = true ∧
      sorted.memory.counters b.machine =
        (w.counters b.machine).countCrossings 1 (!w.isAttached thread b.machine)

theorem Binding.Hindered.stopped {b : Binding σ} {w : World σ} (h : b.Hindered w)
    (hlt : b.machine < w.machines.size) (thread : Thread) {buffer : Array Int32}
    (hsize : 2 ≤ buffer.size) :
    Stopped b thread buffer w (b.hindrance thread w) (b.sort thread (.whole buffer) buffer w) where
  once := h.length_calls thread hsize
  parked := by rw [h.sort_eq thread hsize]
  memory := by
    rw [h.sort_eq thread hsize]
    exact w.memory_asked ..
  uncalled body := by
    have h' : ({ b with body } : Binding σ).Hindered w := h
    rw [h.sort_eq thread hsize, h'.sort_eq thread hsize]
    rfl
  refused hattach := by
    rw [h.sort_eq thread hsize, hindrance, if_pos hattach]
    dsimp only
    rw [World.asked_of_faulty thread _ hattach, World.counters_count, if_pos ⟨rfl, hlt⟩]
    exact ⟨rfl, rfl, rfl⟩
  thrown hattach := by
    rw [h.sort_eq thread hsize, hindrance, if_neg (by simp [hattach])]
    dsimp only
    refine ⟨rfl, ?_, World.counters_asked thread _ hlt hattach 1⟩
    rw [World.asked_of_not_faulty thread _ hattach]
    exact w.isAttached_joined thread b.machine

namespace Session
variable {b : Binding σ}

/-- In every run, a sort through a binding fails exactly if it has an order to ask for and a fault
of attaching or invoking is in the way, and then it stops at its first question. -/
theorem faults_stop_first (memory : σ) (ops : List (Operation σ)) {holder : Holder}
    (hb : ((start memory).run ops).bound? holder = some b) (thread : Thread)
    (buffer : Array Int32) :
    let s := (start memory).run ops
    let sorted := b.sort thread (.whole buffer) buffer s.world
    s.perform (.sortBound thread holder buffer) = s.finish sorted ∧
      ((∃ f, sorted.result = .error f) ↔ 2 ≤ buffer.size ∧
        (s.world.faulty b.machine .attach = true ∨ s.world.faulty b.machine .invoke = true)) ∧
      (∀ f, sorted.result = .error f → Stopped b thread buffer s.world f sorted) ∧
      (buffer.size < 2 → sorted = ⟨.ok (), buffer, s.world⟩) := by
  intro s sorted
  refine ⟨perform_sortBound hb thread buffer, b.sort_fails_iff thread buffer s.world,
    fun f hf => ?_, fun hsize => b.sort_of_lt_two thread hsize s.world⟩
  obtain ⟨hsize, h⟩ := (b.sort_fails_iff thread buffer s.world).1 ⟨f, hf⟩
  have hstopped := h.stopped (machine_lt_of_bound? memory ops hb) thread hsize
  have hresult : sorted.result = .error (b.hindrance thread s.world) :=
    congrArg Walk.result (h.sort_eq thread hsize)
  obtain rfl : b.hindrance thread s.world = f := Except.error.inj (hresult.symm.trans hf)
  exact hstopped

/-- A bound comparator whose runtime has come to refuse attaching and to throw. -/
def failing : List (Operation Unit) :=
  [.create Class.benchmarks, .enter .main 0, .resolve 0 (.ofClass benchmarkClass .staticComparator),
    .inject 0 .invoke, .inject 0 .attach]

theorem faults_stop_first_worker :
    let s := (start ()).run failing
    let b : Binding Unit := ⟨0, 0, .onClass, .staticComparator, .ascending⟩
    let sorted := b.sort (.worker 0) (.whole #[3, 2, 1]) #[3, 2, 1] s.world
    s.bound? (.binding 0) = some b ∧ sorted.result = .error (.attachRefused 1 "ThreadId(other)") ∧
      sorted.buffer = #[2, 3, 1] ∧ (sorted.memory.counters 0).attachChecks = 1 ∧
      (sorted.memory.counters 0).invocations = 0 := by
  intro s b sorted
  have hb : s.bound? (.binding 0) = some b := rfl
  obtain ⟨-, hfails, hstops, -⟩ := faults_stop_first () failing hb (.worker 0) #[3, 2, 1]
  obtain ⟨f, hf⟩ := hfails.2 ⟨by decide, .inl rfl⟩
  have hstopped := hstops f hf
  obtain ⟨rfl, -, hcounted⟩ := hstopped.refused rfl
  refine ⟨hb, hf, hstopped.parked, ?_, ?_⟩
  · exact congrArg Counters.attachChecks hcounted
  · exact congrArg Counters.invocations hcounted

end Session
end CallBridge.Bridge
