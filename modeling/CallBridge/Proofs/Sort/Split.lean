import CallBridge.Proofs.Sort.Course
import Mathlib.Data.List.Permutation

/-!
# What a split settles

`Scan` is what the two scans lead to from any zone on, whatever the answers: the pivot ends at the
place the scans return, what was settled in front or behind ends on that side of it, and each
element of the zone that was not asked about before is asked about once, against the pivot, and ends
on a side that its answer allows. The step lemmas follow the moves of the scans. `Split` is what is
left of it for a whole segment.
-/

namespace CallBridge.DecisionTree

variable {answer : Int32}

theorem sign_eq_lt_iff : sign answer = .lt ↔ answer < 0 := by
  unfold sign
  split_ifs with h₁ h₂ <;> simp [h₁]

theorem sign_ne_lt_iff : sign answer ≠ .lt ↔ 0 ≤ answer := by
  rw [Ne, sign_eq_lt_iff, Int32.not_lt]

theorem sign_eq_gt_iff : sign answer = .gt ↔ 0 < answer := by
  unfold sign
  split_ifs with h₁ h₂
  · simpa using Int32.le_of_lt h₁
  · simp [h₂]
  · simpa using Int32.lt_of_le_of_ne (Int32.not_lt.1 h₁) (Ne.symm h₂)

theorem sign_ne_gt_iff : sign answer ≠ .gt ↔ answer ≤ 0 := by
  rw [Ne, sign_eq_gt_iff, Int32.not_lt]

end CallBridge.DecisionTree

namespace CallBridge.Sort
open DecisionTree

/-- What the scans of a segment with the pivot parked at `lo` lead to from the zone of `r` elements
behind the `p` that are settled in front. Of the first `seen` elements of the zone it is known that
they do not come before the pivot. -/
structure Scan (lo len p r seen k : Nat) (π : Equiv.Perm Nat) (L : List Verdict) : Prop where
  pivot : π lo = lo + k
  front : ∀ q, lo < q → q ≤ lo + p → π q < lo + k
  back : ∀ q, lo + p < q → q < lo + len → q ≤ lo + p + seen ∨ lo + p + r < q → lo + k < π q
  asked : (L.map (·.left)).Perm ((List.range' (lo + p + 1 + seen) (r - seen)).map π)
  right : ∀ v ∈ L, v.right = lo + k
  low : ∀ v ∈ L, v.left < lo + k → v.answer ≤ 0
  high : ∀ v ∈ L, lo + k < v.left → 0 ≤ v.answer

namespace Scan
variable {lo len p r seen k : Nat} {π : Equiv.Perm Nat} {L : List Verdict} {answer : Int32}

/-- The scans have met: the pivot goes to the last place settled in front. -/
theorem met (h : r ≤ seen) : Scan lo len p r seen p (1 * Equiv.swap lo (lo + p)) [] where
  pivot := by simp
  front q hq hp := by
    rw [one_mul, Equiv.swap_apply_def]
    split_ifs <;> omega
  back q hq _ _ := by
    rw [one_mul, Equiv.swap_apply_of_ne_of_ne (by omega) (by omega)]
    exact hq
  asked := by simp [Nat.sub_eq_zero_of_le h]
  right := by simp
  low := by simp
  high := by simp

/-- A verdict on the pivot and an element whose side allows the answer. -/
theorem cons (h : Scan lo len p r seen k π L) (q : Nat) (low : π q < lo + k → answer ≤ 0)
    (high : lo + k < π q → 0 ≤ answer) :
    let L' := ⟨π q, π lo, answer⟩ :: L
    (∀ v ∈ L', v.right = lo + k) ∧ (∀ v ∈ L', v.left < lo + k → v.answer ≤ 0) ∧
      ∀ v ∈ L', lo + k < v.left → 0 ≤ v.answer := by
  refine ⟨?_, ?_, ?_⟩ <;> rw [List.forall_mem_cons]
  · exact ⟨h.pivot, h.right⟩
  · exact ⟨low, h.low⟩
  · exact ⟨high, h.high⟩

/-- The first of the zone comes before the pivot: it is settled in front. -/
theorem settleFront (h : Scan lo len (p + 1) r 0 k π L) (ha : answer < 0) :
    Scan lo len p (r + 1) 0 k π (⟨π (lo + p + 1), π lo, answer⟩ :: L) := by
  have hside : π (lo + p + 1) < lo + k := h.front _ (by omega) (by omega)
  obtain ⟨right, low, high⟩ := h.cons (lo + p + 1) (fun _ => Int32.le_of_lt ha) fun hgt => by omega
  refine ⟨h.pivot, fun q hq hp => h.front q hq (by omega),
    fun q hq hlt hor => h.back q (by omega) hlt (by omega), ?_, right, low, high⟩
  rw [List.map_cons, Nat.sub_zero, List.range'_succ, List.map_cons]
  exact h.asked.cons _

/-- The first of the zone does not come before the pivot. -/
theorem stopFront (h : Scan lo len p (r + 1) 1 k π L) (hn : p + (r + 1) < len)
    (ha : 0 ≤ answer) :
    Scan lo len p (r + 1) 0 k π (⟨π (lo + p + 1), π lo, answer⟩ :: L) := by
  have hside : lo + k < π (lo + p + 1) := h.back _ (by omega) (by omega) (by omega)
  obtain ⟨right, low, high⟩ := h.cons (lo + p + 1) (fun hlt => by omega) fun _ => ha
  refine ⟨h.pivot, h.front, fun q hq hlt hor => h.back q hq hlt (by omega), ?_, right, low, high⟩
  rw [List.map_cons, Nat.sub_zero, List.range'_succ, List.map_cons]
  exact h.asked.cons _

/-- The last of the zone comes after the pivot: it is settled behind. -/
theorem settleBack (h : Scan lo len p (r + 1) 1 k π L) (hn : p + (r + 2) < len)
    (ha : 0 < answer) :
    Scan lo len p (r + 2) 1 k π (⟨π (lo + p + r + 2), π lo, answer⟩ :: L) := by
  have hside : lo + k < π (lo + p + r + 2) := h.back _ (by omega) (by omega) (by omega)
  obtain ⟨right, low, high⟩ := h.cons (lo + p + r + 2) (fun hlt => by omega) fun _ =>
    Int32.le_of_lt ha
  refine ⟨h.pivot, h.front, fun q hq hlt hor => h.back q hq hlt (by omega), ?_, right, low, high⟩
  have hlast : lo + p + 1 + 1 + r = lo + p + r + 2 := by omega
  rw [List.map_cons, show r + 2 - 1 = r + 1 from rfl, List.range'_1_concat, List.map_append,
    hlast]
  exact (h.asked.cons _).trans (List.perm_append_singleton ..).symm

/-- The last of the zone does not come after the pivot: it changes places with the first, and both
are settled. -/
theorem swapEnds (h : Scan lo len (p + 1) r 0 k π L) (hn : p + (r + 2) < len)
    (ha : answer ≤ 0) :
    let π' := π * Equiv.swap (lo + p + 1) (lo + p + r + 2)
    Scan lo len p (r + 2) 1 k π' (⟨π' (lo + p + r + 2), π' lo, answer⟩ :: L) := by
  intro π'
  have hfirst : π' (lo + p + 1) = π (lo + p + r + 2) :=
    congrArg π (Equiv.swap_apply_left ..)
  have hlast : π' (lo + p + r + 2) = π (lo + p + 1) :=
    congrArg π (Equiv.swap_apply_right ..)
  have hrest : ∀ q, q ≠ lo + p + 1 → q ≠ lo + p + r + 2 → π' q = π q := fun q h₁ h₂ =>
    congrArg π (Equiv.swap_apply_of_ne_of_ne h₁ h₂)
  have hlo : π' lo = π lo := hrest lo (by omega) (by omega)
  have hside : π (lo + p + 1) < lo + k := h.front _ (by omega) (by omega)
  obtain ⟨right, low, high⟩ := h.cons (lo + p + 1) (fun _ => ha) fun hgt => by omega
  rw [hlast, hlo]
  refine ⟨hlo.trans h.pivot, fun q hq hp => ?_, fun q hq hlt hor => ?_, ?_, right, low, high⟩
  · rw [hrest q (by omega) (by omega)]
    exact h.front q hq (by omega)
  · by_cases hq' : q = lo + p + 1
    · rw [hq', hfirst]
      exact h.back _ (by omega) (by omega) (by omega)
    · rw [hrest q hq' (by omega)]
      exact h.back q (by omega) hlt (by omega)
  · have hzone : (List.range' (lo + p + 1 + 1) r).map π' =
        (List.range' (lo + p + 1 + 1) r).map π := List.map_congr_left fun q hq => by
      rw [List.mem_range'_1] at hq
      exact hrest q (by omega) (by omega)
    rw [List.map_cons, show r + 2 - 1 = r + 1 from rfl, List.range'_1_concat, List.map_append,
      hzone, List.map_singleton, show lo + p + 1 + 1 + r = lo + p + r + 2 by omega, hlast]
    exact (h.asked.cons _).trans (List.perm_append_singleton ..).symm

end Scan

/-- The scans lead to what `Scan` says, from the front as well as from the back. -/
theorem scan_of_course (lo len : Nat) :
    (∀ p r h {π L k}, (fromFront lo len p r h).Course π L k → Scan lo len p r 0 k π L) ∧
    (∀ p r h {π L k}, (fromBack lo len p r h).Course π L k → Scan lo len p r 1 k π L) := by
  refine fromFront.mutual_induct len
    (fun p r h => ∀ {π L k}, (fromFront lo len p r h).Course π L k → Scan lo len p r 0 k π L)
    (fun p r h => ∀ {π L k}, (fromBack lo len p r h).Course π L k → Scan lo len p r 1 k π L)
    ?_ ?_ ?_ ?_ ?_
  · intro p h _ π L k hc
    rw [fromFront] at hc
    cases hc with | exchange hc => cases hc; exact Scan.met (Nat.le_refl 0)
  · intro p r h _ front back π L k hc
    rw [fromFront] at hc
    cases hc with | compare answer hc =>
    dsimp only at hc
    split at hc
    case h_1 hs => exact (front hc).settleFront (sign_eq_lt_iff.1 hs)
    case h_2 hs => exact (back hc).stopFront h (sign_ne_lt_iff.1 hs)
  · intro p h _ π L k hc
    rw [fromBack] at hc
    cases hc with | exchange hc => cases hc; exact Scan.met (Nat.zero_le 1)
  · intro p h _ π L k hc
    rw [fromBack] at hc
    cases hc with | exchange hc => cases hc; exact Scan.met (Nat.le_refl 1)
  · intro p r h _ back front π L k hc
    rw [fromBack] at hc
    cases hc with | compare answer hc =>
    dsimp only at hc
    split at hc
    case h_1 hs => exact (back hc).settleBack h (sign_eq_gt_iff.1 hs)
    case h_2 hs => cases hc with | exchange hc => exact (front hc).swapEnds h (sign_ne_gt_iff.1 hs)

/-! ### Positions of a split -/

theorem within_scans (lo len : Nat) :
    (∀ p r h, (fromFront lo len p r h).Within lo len) ∧
    (∀ p r h, (fromBack lo len p r h).Within lo len) := by
  refine fromFront.mutual_induct len (fun p r h => (fromFront lo len p r h).Within lo len)
    (fun p r h => (fromBack lo len p r h).Within lo len) ?_ ?_ ?_ ?_ ?_
  · intro p h _
    rw [fromFront]
    exact ⟨by omega, by omega, trivial⟩
  · intro p r h _ front back
    rw [fromFront]
    refine ⟨by omega, by omega, fun o => ?_⟩
    cases o with
    | lt => exact front
    | eq => exact back
    | gt => exact back
  · intro p h _
    rw [fromBack]
    exact ⟨by omega, by omega, trivial⟩
  · intro p h _
    rw [fromBack]
    exact ⟨by omega, by omega, trivial⟩
  · intro p r h _ back front
    rw [fromBack]
    refine ⟨by omega, by omega, fun o => ?_⟩
    cases o with
    | gt => exact back
    | lt => exact ⟨by omega, by omega, front⟩
    | eq => exact ⟨by omega, by omega, front⟩

theorem within_split (lo len : Nat) (h : 1 < len) : (split lo len h).Within lo len :=
  ⟨by omega, by omega, (within_scans lo len).1 _ _ _⟩

theorem within_segment (lo len : Nat) : (segment lo len).Within lo len := by
  induction lo, len using segment.induct with
  | case1 lo len h low high _ =>
    rw [segment, dif_pos h]
    refine (within_split lo len h).bind fun k => ?_
    have hlow : (segment lo k).Within lo len := (low k).mono (by omega) (by omega)
    have hhigh : (segment (lo + k + 1) (len - 1 - k)).Within lo len :=
      (high k).mono (by omega) (by omega)
    split
    · exact hlow.bind fun _ => hhigh
    · exact hhigh.bind fun _ => hlow
  | case2 lo len h =>
    rw [segment, dif_neg h]
    trivial

/-! ### A split as a whole -/

/-- Verdicts that part a segment at its position `k`: each other element is asked about once, against
the one at `k`, and is on a side that its answer allows. -/
structure Split (lo len k : Nat) (L : List Verdict) : Prop where
  asked : (L.map (·.left)).Perm (List.range' lo k ++ List.range' (lo + k + 1) (len - 1 - k))
  right : ∀ v ∈ L, v.right = lo + k
  low : ∀ v ∈ L, v.left < lo + k → v.answer ≤ 0
  high : ∀ v ∈ L, lo + k < v.left → 0 ≤ v.answer

/-- A segment with one position in its middle. -/
theorem range'_perm_cons {lo len k : Nat} (hk : k < len) :
    (List.range' lo len).Perm
      ((lo + k) :: (List.range' lo k ++ List.range' (lo + k + 1) (len - 1 - k))) := by
  obtain ⟨m, rfl⟩ : ∃ m, len = k + (m + 1) := ⟨len - 1 - k, by omega⟩
  rw [← List.range'_append_1, List.range'_succ, show k + (m + 1) - 1 - k = m by omega]
  exact List.perm_middle

theorem split_of_course {lo len : Nat} {h : 1 < len} {π : Equiv.Perm Nat} {L : List Verdict}
    {k : Fin len} (hc : (split lo len h).Course π L k) : Split lo len k L := by
  cases hc with | @exchange _ _ _ π _ _ hc =>
  have hscan := (scan_of_course lo len).1 _ _ _ hc
  refine ⟨?_, hscan.right, hscan.low, hscan.high⟩
  have hall := (hc.fixesOutside ((within_scans lo len).1 _ _ _)).perm_range'
  obtain ⟨m, rfl⟩ : ∃ m, len = m + 1 := ⟨len - 1, by omega⟩
  rw [List.range'_succ, List.map_cons, hscan.pivot] at hall
  exact hscan.asked.trans ((hall.trans (range'_perm_cons k.isLt)).cons_inv)

end CallBridge.Sort
