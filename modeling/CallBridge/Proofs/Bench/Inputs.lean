import CallBridge.Bench.Arrangement
import CallBridge.Proofs.Sort.Order

/-!
# What inputs are and what they are sorted to

Every input is a permutation of the numbers from zero on, whatever its order and its seed
(`generate_perm`). A buffer has only one permutation in ascending order, so whoever answers to the
ascending order leads every input of a length to the same buffer (`byPosition_generate`).
-/

namespace CallBridge.Sort

theorem valueAt_of_lt {buffer : Array Int32} {i : Nat} (h : i < buffer.size) :
    valueAt buffer i = buffer[i] := by
  simp [valueAt, Array.getD, h]

theorem ordered_ascending_iff {buffer : Array Int32} :
    Ordered ascending buffer ↔ buffer.toList.Pairwise (· ≤ ·) := by
  have hle : ∀ a b : Int32, ascending a b ≤ 0 ↔ a ≤ b := fun a b => by
    rw [← DecisionTree.sign_ne_gt_iff, sign_ascending, Ne, Int.compare_eq_gt,
      Int32.le_iff_toInt_le, Int.not_lt]
  rw [List.pairwise_iff_getElem]
  constructor
  · intro h p q hp hq hpq
    rw [Array.length_toList] at hp hq
    have hpair := h p q hpq hq
    rwa [hle, valueAt_of_lt hp, valueAt_of_lt hq] at hpair
  · intro h p q hpq hq
    rw [hle, valueAt_of_lt (hpq.trans hq), valueAt_of_lt hq]
    exact h p q _ _ hpq

/-- Only one permutation of a buffer is in ascending order. -/
theorem eq_of_ordered_of_perm {a b : Array Int32} (ha : Ordered ascending a)
    (hb : Ordered ascending b) (h : a.Perm b) : a = b := by
  rw [ordered_ascending_iff] at ha hb
  exact Array.toList_inj.1 (h.toList.eq_of_pairwise' ha hb)

theorem ordered_ascendingWalk (buffer : Array Int32) :
    Ordered ascending (ascendingWalk buffer).1 :=
  byPosition_ordered isPreorder_ascending (reads_ofValues fun _ _ _ => rfl)

end CallBridge.Sort

namespace CallBridge.Bench
open CallBridge.Sort

theorem shuffle_perm (n : Nat) (a : Array Int32) (g : Generator) : (shuffle n a g).Perm a := by
  fun_induction shuffle n a g with
  | case1 a => exact .refl a
  | case2 a => exact .refl a
  | case3 n a g j g' _ ih => exact ih.trans (swapIfInBounds_perm ..)

/-- An input holds the numbers from zero on, in one order or another. -/
theorem generate_perm (arrangement : Arrangement) (length : Nat) (seed : UInt64) :
    (generate arrangement length seed).Perm (upward (min length maxInput)) := by
  cases arrangement with
  | ascending => exact .refl _
  | descending =>
    rw [Array.perm_iff_toList_perm]
    simp [generate]
  | random => exact shuffle_perm _ _ _

@[simp] theorem size_upward (n : Nat) : (upward n).size = n := by simp [upward]

theorem valueAt_upward {n i : Nat} (h : i < n) : valueAt (upward n) i = Int32.ofNat i := by
  rw [valueAt_of_lt (by simpa using h)]
  simp [upward]

/-- Numbers that a signed 32-bit number can hold go up. -/
theorem ordered_upward {n : Nat} (h : n ≤ 2 ^ 31) : Ordered ascending (upward n) := by
  intro p q hpq hq
  rw [size_upward] at hq
  rw [valueAt_upward (hpq.trans hq), valueAt_upward hq, ← DecisionTree.sign_ne_gt_iff,
    sign_ascending, Ne, Int.compare_eq_gt, Int32.toInt_ofNat_of_lt (by omega),
    Int32.toInt_ofNat_of_lt (by omega)]
  omega

/-- Whoever answers to the ascending order sorts every input to the numbers going up. -/
theorem byPosition_generate {σ ε : Type} {ask : Comparer σ ε Int32} (h : Reads ascending ask)
    (arrangement : Arrangement) (length : Nat) (seed : UInt64) (memory : σ) :
    (byPosition ask (generate arrangement length seed) memory).buffer =
      upward (min length maxInput) := by
  have hfits : min length maxInput ≤ 2 ^ 31 := by
    have hmax : maxInput < 2 ^ 31 := by decide
    omega
  exact eq_of_ordered_of_perm (byPosition_ordered isPreorder_ascending h) (ordered_upward hfits)
    (byPosition_perm.trans (generate_perm ..))

theorem ascendingWalk_generate (arrangement : Arrangement) (length : Nat) (seed : UInt64) :
    (ascendingWalk (generate arrangement length seed)).1 = upward (min length maxInput) := by
  have hreads : Reads ascending (ofValues fun a b asked => (ascending a b, asked + 1) :
      Comparer Nat Empty Int32) := reads_ofValues fun _ _ _ => rfl
  exact byPosition_generate hreads arrangement length seed 0

end CallBridge.Bench
