import CallBridge.Bridge.Sorting

/-!
# Undisturbed sorts

A binding to the ascending order, on a thread that is attached and with no fault in its way, answers
every question. Then a walk through the binding is the walk of the ascending order
(`follow_comparer`): the buffer comes out the same, and all that happens to the world is that the
questions are counted. So the outcome of such a sort can be foreseen (`sort_eq_of_isUndisturbed`).
-/

namespace CallBridge.Managed

/-- Count so many questions, each of them a check and an invocation. -/
def Counters.countQuestions (c : Counters) (n : Nat) : Counters :=
  { c with attachChecks := c.attachChecks + n, invocations := c.invocations + n }

namespace World
variable {σ : Type}

/-- Count so many questions asked of a runtime. -/
def countQuestions (w : World σ) (id n : Nat) : World σ := w.count id (·.countQuestions n)

theorem update_update (w : World σ) (id : Nat) (f g : Machine σ → Machine σ) :
    (w.update id f).update id g = w.update id fun m => g (f m) := by
  simp only [update, World.mk.injEq, and_self, and_true]
  apply Array.ext
  · simp
  · intro i h₁ h₂
    simp only [Array.getElem_modify]
    split <;> rfl

/-- Counting nothing changes nothing. -/
theorem countQuestions_zero (w : World σ) (id : Nat) : w.countQuestions id 0 = w := by
  cases w
  simp only [countQuestions, count, update, World.mk.injEq, and_self, and_true]
  apply Array.ext
  · simp
  · intro i h₁ h₂
    simp only [Array.getElem_modify]
    split <;> rfl

/-- Counting disturbs nothing: the faults stay as they are. -/
theorem faulty_count (w : World σ) (id : Nat) (c : Counters → Counters) (f : Fault) :
    (w.count id c).faulty id f = w.faulty id f := by
  simp only [count, update, faulty, Array.getElem?_modify]
  cases w.machines[id]? <;> simp [Machine.count]

theorem isAttached_count (w : World σ) (id : Nat) (c : Counters → Counters) (thread : Thread) :
    (w.count id c).isAttached thread id = w.isAttached thread id := rfl

end World
end CallBridge.Managed

namespace CallBridge.Bridge
open Managed

variable {σ : Type}

namespace Binding

/-- Whether a binding stands for the ascending order and nothing keeps it from answering on a
thread. -/
def isUndisturbed (b : Binding σ) (thread : Thread) (w : World σ) : Bool :=
  b.body.isAscending && !w.faulty b.machine .attach && !w.faulty b.machine .invoke &&
    w.isAttached thread b.machine

/-- An undisturbed binding answers in ascending order, and the question is counted. -/
theorem invoke_countQuestions {b : Binding σ} {thread : Thread} {w : World σ}
    (h : b.isUndisturbed thread w) (q : Question) (n : Nat) :
    b.invoke thread q (w.countQuestions b.machine n) =
      (.ok (Sort.ascending q.leftValue q.rightValue), w.countQuestions b.machine (n + 1)) := by
  obtain ⟨⟨⟨hb, ha⟩, hi⟩, ht⟩ : ((b.body.isAscending ∧ w.faulty b.machine .attach = false) ∧
      w.faulty b.machine .invoke = false) ∧ w.isAttached thread b.machine := by
    simpa [isUndisturbed] using h
  have hq (m : σ) : b.body.answer q m = (Sort.ascending q.leftValue q.rightValue, m) := by
    cases hbody : b.body with
    | ascending => rfl
    | remembering f => simp [hbody, Body.isAscending] at hb
  have hcount : ((w.countQuestions b.machine n).count b.machine .countCheck).count b.machine
      .countInvocation = w.countQuestions b.machine (n + 1) := by
    simp only [World.countQuestions, World.count, World.update_update]
    rfl
  simp [invoke, ensureAttached, attach, call, Act.bind_eq, Act.change, Act.look, hq,
    World.faulty_count, World.isAttached_count, World.countQuestions, ha, hi, ht] at hcount ⊢
  exact hcount

/-- A walk through an undisturbed binding is the walk of the ascending order. -/
theorem follow_comparer {b : Binding σ} {thread : Thread} {w : World σ}
    (h : b.isUndisturbed thread w) {ρ : Type} (t : DecisionTree ρ) (buffer : Array Int32)
    (n : Nat) :
    t.follow (b.comparer thread) buffer (w.countQuestions b.machine n) =
      let walk : Walk Nat Empty Int32 ρ := t.follow Sort.countingAscending buffer n
      ⟨walk.result.mapError Empty.elim, walk.buffer, w.countQuestions b.machine walk.memory⟩ := by
  induction t generalizing buffer n with
  | done r => rfl
  | exchange i j next ih => exact ih ..
  | compare left right next ih =>
    have hq : b.comparer thread left right buffer (w.countQuestions b.machine n) =
        (.ok (Sort.ascending (Sort.valueAt buffer left) (Sort.valueAt buffer right)),
          w.countQuestions b.machine (n + 1)) :=
      invoke_countQuestions h (question left right buffer) n
    simp only [DecisionTree.follow, hq]
    exact ih ..

/-- An undisturbed sort of a whole buffer ends in ascending order, with its questions counted. -/
theorem sort_eq_of_isUndisturbed {b : Binding σ} {thread : Thread} {w : World σ}
    (h : b.isUndisturbed thread w) (buffer : Array Int32) :
    b.sort thread (.whole buffer) buffer w =
      ⟨.ok (), (Sort.ascendingWalk buffer).1,
        w.countQuestions b.machine (Sort.ascendingWalk buffer).2⟩ := by
  have hf := follow_comparer h (Sort.segment 0 buffer.size) buffer 0
  rw [World.countQuestions_zero] at hf
  simp only [Binding.sort, Segment.whole, hf]
  change (⟨_, (Sort.ascendingWalk buffer).1,
    w.countQuestions b.machine (Sort.ascendingWalk buffer).2⟩ : Sorted σ) = _
  congr 1
  generalize (DecisionTree.follow _ _ _ _).result = result
  rcases result with e | r
  · exact e.elim
  · rfl

end Binding
end CallBridge.Bridge
