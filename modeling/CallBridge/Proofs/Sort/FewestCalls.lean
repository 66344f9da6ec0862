import CallBridge.Proofs.Sort.Inquiry
import CallBridge.Proofs.Sort.Tokens
import Mathlib.Algebra.BigOperators.Intervals
import Mathlib.Algebra.Order.BigOperators.Group.Finset
import Mathlib.Data.Nat.Log

/-!
# The fewest questions

A split of `len` elements asks `len - 1` questions, whatever the answers, so the number of questions
of a sort is decided by where its pivots come to stand. It is least if each of them comes to stand
in the middle, and then it is `fewestCalls`. That is so if the buffer stands in strict order already
(`Rising.stays_segment`): the middle element is parked at the front and put back, and both halves
are as they were. And it is so if no answer ever decides anything (`length_of_undecided`): then the
two scans close in on each other in step.
-/

namespace CallBridge.Sort
open DecisionTree

/-! ### The number -/

/-- The fewest questions by which `n` elements are sorted: the sum of the binary logarithms, rounded
down, of the numbers up to `n`. -/
def fewestCalls (n : Nat) : Nat := ∑ k ∈ Finset.Icc 1 n, Nat.log 2 k

theorem fewestCalls_succ (n : Nat) :
    fewestCalls (n + 1) = fewestCalls n + Nat.log 2 (n + 1) :=
  Finset.sum_Icc_succ_top (Nat.le_add_left 1 n) _

theorem fewestCalls_le_mul_log (n : Nat) : fewestCalls n ≤ n * Nat.log 2 n := by
  have hle : ∀ k ∈ Finset.Icc 1 n, Nat.log 2 k ≤ Nat.log 2 n := fun k hk =>
    Nat.log_mono_right (Finset.mem_Icc.1 hk).2
  calc fewestCalls n ≤ (Finset.Icc 1 n).card • Nat.log 2 n := Finset.sum_le_card_nsmul _ _ _ hle
    _ = n * Nat.log 2 n := by rw [Nat.card_Icc, Nat.add_sub_cancel, smul_eq_mul]

/-- With the pivot in the middle, both halves take the fewest questions if the whole does. -/
theorem fewestCalls_halves (m : Nat) :
    fewestCalls (2 * m + 1) = 2 * m + (fewestCalls m + fewestCalls m) ∧
      fewestCalls (2 * m + 2) = 2 * m + 1 + (fewestCalls m + fewestCalls (m + 1)) := by
  have hlog : ∀ m e, e < 2 → Nat.log 2 (2 * (m + 1) + e) = Nat.log 2 (m + 1) + 1 := by
    intro m e he
    rw [Nat.log_of_one_lt_of_le (by omega) (by omega)]
    congr 2
    omega
  induction m with
  | zero => decide
  | succ m ih =>
    have hodd : fewestCalls (2 * (m + 1) + 1) =
        2 * (m + 1) + (fewestCalls (m + 1) + fewestCalls (m + 1)) := by
      rw [fewestCalls_succ, hlog m 1 (by omega), show 2 * (m + 1) = 2 * m + 2 from rfl, ih.2,
        fewestCalls_succ m]
      omega
    refine ⟨hodd, ?_⟩
    rw [fewestCalls_succ, hodd, show 2 * (m + 1) + 1 + 1 = 2 * (m + 1 + 1) + 0 from rfl,
      hlog (m + 1) 0 (by omega), fewestCalls_succ (m + 1)]
    omega

theorem fewestCalls_of_middle {len k : Nat} (h : 0 < len) (hk : k = len / 2 ∨ k = (len - 1) / 2) :
    fewestCalls len = len - 1 + (fewestCalls k + fewestCalls (len - 1 - k)) := by
  obtain ⟨m, rfl | rfl⟩ : ∃ m, len = 2 * m + 1 ∨ len = 2 * m + 2 := ⟨(len - 1) / 2, by omega⟩
  · obtain rfl : k = m := by omega
    rw [(fewestCalls_halves k).1, show 2 * k + 1 - 1 - k = k by omega]
    rfl
  · have heven := (fewestCalls_halves m).2
    obtain rfl | rfl : k = m + 1 ∨ k = m := by omega
    · rw [show 2 * m + 2 - 1 - (m + 1) = m by omega]
      omega
    · rw [show 2 * k + 2 - 1 - k = k + 1 by omega]
      omega

/-- Two parts take the fewer questions the less they differ. -/
theorem fewestCalls_spread (a d e : Nat) :
    fewestCalls (a + d) + fewestCalls (a + d + e) ≤
      fewestCalls a + fewestCalls (a + 2 * d + e) := by
  induction d generalizing e with
  | zero => exact Nat.le_refl _
  | succ d ih =>
    have hfar := ih (e + 2)
    have hlow := fewestCalls_succ (a + d)
    have hhigh : fewestCalls (a + d + (e + 2)) = _ := fewestCalls_succ (a + d + e + 1)
    have hlog : Nat.log 2 (a + d + 1) ≤ Nat.log 2 (a + d + e + 1 + 1) :=
      Nat.log_mono_right (by omega)
    rw [show a + 2 * d + (e + 2) = a + 2 * (d + 1) + e by omega] at hfar
    rw [show a + (d + 1) + e = a + d + e + 1 by omega, ← Nat.add_assoc a d 1]
    omega

theorem fewestCalls_le_of_pivot {len k : Nat} (hk : k < len) :
    fewestCalls len ≤ len - 1 + (fewestCalls k + fewestCalls (len - 1 - k)) := by
  -- the smaller side is `a`, the larger one `a + 2 * d + e` with `e` at most one
  have hparts : ∀ a b, a ≤ b → a + b + 1 = len →
      fewestCalls len ≤ len - 1 + (fewestCalls a + fewestCalls b) := by
    intro a b hab hlen
    have hspread := fewestCalls_spread a ((b - a) / 2) ((b - a) % 2)
    have hmiddle := fewestCalls_of_middle (k := a + (b - a) / 2) (show 0 < len by omega) (by omega)
    rw [show a + 2 * ((b - a) / 2) + (b - a) % 2 = b by omega] at hspread
    rw [show len - 1 - (a + (b - a) / 2) = a + (b - a) / 2 + (b - a) % 2 by omega] at hmiddle
    omega
  rcases Nat.le_total k (len - 1 - k) with h | h
  · exact hparts _ _ h (by omega)
  · rw [Nat.add_comm (fewestCalls k)]
    exact hparts _ _ h (by omega)

/-! ### Any answers -/

section
variable {lo len : Nat} {π : Equiv.Perm Nat} {L : List Verdict}

/-- Each element but the pivot is asked about once. -/
theorem length_of_split {h : 1 < len} {k : Fin len} (hc : (split lo len h).Course π L k) :
    L.length = len - 1 := by
  have hasked := (split_of_course hc).asked.length_eq
  rw [List.length_map, List.length_append, List.length_range', List.length_range'] at hasked
  omega

/-- A segment of two or more is split and both sides are sorted; only the names of the elements
change on the way. -/
theorem exists_sides (h : 1 < len) (hc : (segment lo len).Course π L ()) :
    ∃ π₁ S k π₂ A π₃ B, (split lo len h).Course π₁ S k ∧ (segment lo k).Course π₂ A () ∧
      (segment (lo + k + 1) (len - 1 - k)).Course π₃ B () ∧
      (L.map (·.answer)).Perm ((S ++ (A ++ B)).map (·.answer)) := by
  have hnamed : ∀ (τ : Equiv.Perm Nat) (L : List Verdict),
      (L.map fun v => v.map τ).map (·.answer) = L.map (·.answer) := by
    intro τ L
    rw [List.map_map]
    rfl
  rw [segment, dif_pos h] at hc
  obtain ⟨π₁, S, k, π₂, L₂, hsplit, hrest, -, rfl⟩ := hc.exists_of_bind
  split at hrest
  all_goals
    obtain ⟨π₃, L₃, _, π₄, L₄, h₃, h₄, -, rfl⟩ := hrest.exists_of_bind
    simp only [List.map_append, hnamed]
  · exact ⟨π₁, S, k, π₃, L₃, π₄, L₄, hsplit, h₃, h₄, .refl _⟩
  · exact ⟨π₁, S, k, π₄, L₄, π₃, L₃, hsplit, h₄, h₃, List.perm_append_comm.append_left _⟩

theorem fewestCalls_le_length (hc : (segment lo len).Course π L ()) :
    fewestCalls len ≤ L.length := by
  induction len using Nat.strongRecOn generalizing lo π L with
  | ind len ih =>
    by_cases h : 1 < len
    · obtain ⟨π₁, S, k, π₂, A, π₃, B, hsplit, hA, hB, hanswers⟩ := exists_sides h hc
      have hk := k.isLt
      have hS := length_of_split hsplit
      have hlow := ih k hk hA
      have hhigh := ih (len - 1 - k) (by omega) hB
      have hleast := fewestCalls_le_of_pivot hk
      have hlength := hanswers.length_eq
      simp only [List.length_map, List.length_append] at hlength
      omega
    · obtain rfl | rfl : len = 0 ∨ len = 1 := by omega
      all_goals exact Nat.zero_le _

/-! ### No answer decides -/

/-- If all answers are zero, the scans close in on each other in step. -/
theorem scans_undecided (lo len : Nat) :
    (∀ p r h {π L k}, (fromFront lo len p r h).Course π L k → (∀ v ∈ L, v.answer = 0) →
      (k : Nat) = p + r / 2) ∧
    (∀ p r h {π L k}, (fromBack lo len p r h).Course π L k → (∀ v ∈ L, v.answer = 0) →
      (k : Nat) = p + r / 2) := by
  refine fromFront.mutual_induct len _ _ ?_ ?_ ?_ ?_ ?_
  · intro p h _ π L k hc _
    rw [fromFront] at hc
    cases hc with | exchange hc => cases hc; rfl
  · intro p r h _ front back π L k hc hzero
    rw [fromFront] at hc
    cases hc with | compare answer hc =>
    rw [List.forall_mem_cons] at hzero
    obtain ⟨rfl, hrest⟩ := hzero
    exact back hc hrest
  · intro p h _ π L k hc _
    rw [fromBack] at hc
    cases hc with | exchange hc => cases hc; rfl
  · intro p h _ π L k hc _
    rw [fromBack] at hc
    cases hc with | exchange hc => cases hc; rfl
  · intro p r h _ back front π L k hc hzero
    rw [fromBack] at hc
    cases hc with | compare answer hc =>
    rw [List.forall_mem_cons] at hzero
    obtain ⟨rfl, hrest⟩ := hzero
    cases hc with | exchange hc =>
    have hk := front hc hrest
    omega

theorem middle_of_undecided {h : 1 < len} {k : Fin len} (hc : (split lo len h).Course π L k)
    (hzero : ∀ v ∈ L, v.answer = 0) : (k : Nat) = (len - 1) / 2 := by
  cases hc with | exchange hc =>
  have hk := (scans_undecided lo len).1 _ _ _ hc hzero
  omega

theorem length_of_undecided (hc : (segment lo len).Course π L ())
    (hzero : ∀ v ∈ L, v.answer = 0) : L.length = fewestCalls len := by
  induction len using Nat.strongRecOn generalizing lo π L with
  | ind len ih =>
    by_cases h : 1 < len
    · obtain ⟨π₁, S, k, π₂, A, π₃, B, hsplit, hA, hB, hanswers⟩ := exists_sides h hc
      have hall : ∀ v ∈ S ++ (A ++ B), v.answer = 0 := by
        intro v hv
        obtain ⟨u, hu, huv⟩ := List.mem_map.1 (hanswers.mem_iff.2 (List.mem_map_of_mem hv))
        exact huv.symm.trans (hzero u hu)
      simp only [List.forall_mem_append] at hall
      obtain ⟨hzeroS, hzeroA, hzeroB⟩ := hall
      have hk := k.isLt
      have hS := length_of_split hsplit
      have hlow := ih k hk hA hzeroA
      have hhigh := ih (len - 1 - k) (by omega) hB hzeroB
      have hmiddle := fewestCalls_of_middle (by omega) (.inr (middle_of_undecided hsplit hzeroS))
      have hlength := hanswers.length_eq
      simp only [List.length_map, List.length_append] at hlength
      omega
    · rw [segment_of_le_one (by omega)] at hc
      cases hc
      obtain rfl | rfl : len = 0 ∨ len = 1 := by omega
      all_goals rfl

end

/-! ### A buffer in strict order -/

section
variable {σ ε : Type} {ask : Comparer σ ε Int32} {c : Int32 → Int32 → Int32} {buffer : Array Int32}
  {lo len middle : Nat}

/-- The elements of a segment stand in an order, no two of them alike. -/
def Rising (c : Int32 → Int32 → Int32) (lo len : Nat) (buffer : Array Int32) : Prop :=
  ∀ p q, lo ≤ p → p < q → q < lo + len → c (valueAt buffer p) (valueAt buffer q) < 0

theorem Rising.mono {lo' len' : Nat} (h : Rising c lo len buffer) (hlo : lo ≤ lo')
    (hlen : lo' + len' ≤ lo + len) : Rising c lo' len' buffer :=
  fun p q hp hpq hq => h p q (by omega) hpq (by omega)

/-- The elements up to the `middle`-th one behind the pivot come before it, all others after it. -/
def Parted (ask : Comparer σ ε Int32) (lo len middle : Nat) (buffer : Array Int32) : Prop :=
  ∀ q memory, lo < q → q < lo + len → ∃ answer memory',
    ask q lo buffer memory = (.ok answer, memory') ∧
      sign answer = if q ≤ lo + middle then .lt else .gt

/-- With the middle element parked at the front, a rising segment is parted there. -/
theorem Rising.parted (h : Rising c lo len buffer) (hc : IsPreorder c) (reads : Reads c ask)
    (hlen : lo + len ≤ buffer.size) (hmiddle : 0 < middle) (hin : middle < len) :
    Parted ask lo len middle (buffer.swapIfInBounds lo (lo + middle)) := by
  intro q memory hlo hq
  set parked := buffer.swapIfInBounds lo (lo + middle)
  have hsize : parked.size = buffer.size := Array.size_swapIfInBounds
  have hat : ∀ p, valueAt parked p = valueAt buffer (Equiv.swap lo (lo + middle) p) := fun p =>
    valueAt_congr (getElem?_swapIfInBounds buffer (by omega) (by omega) p)
  obtain ⟨answer, hanswer, hsign⟩ := reads q lo parked memory (by omega) (by omega)
  refine ⟨answer, _, Prod.ext hanswer rfl, ?_⟩
  rw [hsign, hat, hat, Equiv.swap_apply_left]
  split
  · rw [sign_eq_lt_iff]
    by_cases hpivot : q = lo + middle
    · rw [hpivot, Equiv.swap_apply_right]
      exact h _ _ (by omega) (by omega) (by omega)
    · rw [Equiv.swap_apply_of_ne_of_ne (by omega) hpivot]
      exact h _ _ (by omega) (by omega) (by omega)
  · rw [hc.swap, Equiv.swap_apply_of_ne_of_ne (by omega) (by omega),
      sign_eq_lt_iff.2 (h _ _ (by omega) (by omega) hq)]
    rfl

/-- The scans of a parted segment exchange nothing but put the pivot in its place. -/
theorem follow_scans_parted (h : Parted ask lo len middle buffer) (hin : middle < len) :
    (∀ p r hr memory, p ≤ middle → middle ≤ p + r →
      ∃ memory', (fromFront lo len p r hr).follow ask buffer memory =
        ⟨.ok ⟨middle, hin⟩, buffer.swapIfInBounds lo (lo + middle), memory'⟩) ∧
    (∀ p r hr memory, p = middle →
      ∃ memory', (fromBack lo len p r hr).follow ask buffer memory =
        ⟨.ok ⟨middle, hin⟩, buffer.swapIfInBounds lo (lo + middle), memory'⟩) := by
  refine fromFront.mutual_induct len _ _ ?_ ?_ ?_ ?_ ?_
  · intro p hr _ memory hp hpr
    obtain rfl : p = middle := by omega
    rw [fromFront]
    exact ⟨memory, rfl⟩
  · intro p r hr _ front back memory hp hpr
    obtain ⟨answer, memory', hask, hsign⟩ := h (lo + p + 1) memory (by omega) (by omega)
    rw [fromFront]
    simp only [follow, hask, hsign]
    split_ifs with hside
    · exact front memory' (by omega) (by omega)
    · exact back memory' (by omega)
  · rintro p hr _ memory rfl
    rw [fromBack]
    exact ⟨memory, rfl⟩
  · rintro p hr _ memory rfl
    rw [fromBack]
    exact ⟨memory, rfl⟩
  · rintro p r hr _ back - memory rfl
    obtain ⟨answer, memory', hask, hsign⟩ := h (lo + p + r + 2) memory (by omega) (by omega)
    rw [fromBack]
    simp only [follow, hask, hsign]
    rw [if_neg (by omega)]
    exact back memory' rfl

/-- Whatever the memory, the walk ends with `r`, leaves the buffer as it is and asks `n`
questions. -/
def Stays {ρ : Type} (ask : Comparer σ ε Int32) (buffer : Array Int32) (t : DecisionTree ρ) (r : ρ)
    (n : Nat) : Prop :=
  ∀ memory, ∃ memory', t.follow ask buffer memory = ⟨.ok r, buffer, memory'⟩ ∧
    (t.inquiries ask buffer memory).length = n

theorem Stays.bind {ρ τ : Type} {t : DecisionTree ρ} {f : ρ → DecisionTree τ} {r : ρ} {r' : τ}
    {n n' : Nat} (h : Stays ask buffer t r n) (h' : Stays ask buffer (f r) r' n') :
    Stays ask buffer (t.bind f) r' (n + n') := by
  intro memory
  obtain ⟨memory₁, hwalk, hasked⟩ := h memory
  obtain ⟨memory₂, hwalk', hasked'⟩ := h' memory₁
  refine ⟨memory₂, ?_, ?_⟩
  · rw [follow_bind, hwalk]
    exact hwalk'
  · rw [inquiries_bind f hwalk, List.length_append, hasked, hasked']

/-- A split asks as many questions in any walk that comes to its end. -/
theorem length_inquiries_split {hone : 1 < len} {memory : σ} {k : Fin len}
    (hlen : lo + len ≤ buffer.size)
    (h : ((split lo len hone).follow ask buffer memory).result = .ok k) :
    ((split lo len hone).inquiries ask buffer memory).length = len - 1 := by
  have hin : (split lo len hone).Within 0 buffer.size :=
    (within_split lo len hone).mono (by omega) (by omega)
  obtain ⟨π, L, hcourse, -, hL⟩ := exists_course hin h
  rw [inquiries_of_ok h, List.length_map, hL.length_eq, length_of_split hcourse]

/-- The split of a rising segment finds the pivot in the middle and leaves it there. -/
theorem Rising.stays_split (h : Rising c lo len buffer) (hc : IsPreorder c) (reads : Reads c ask)
    (hlen : lo + len ≤ buffer.size) (hone : 1 < len) :
    Stays ask buffer (split lo len hone) ⟨len / 2, by omega⟩ (len - 1) := by
  intro memory
  have hparted := h.parted hc reads hlen (show 0 < len / 2 by omega) (by omega)
  obtain ⟨memory', hwalk⟩ := (follow_scans_parted hparted (by omega)).1 0 (len - 1) (by omega)
    memory (by omega) (by omega)
  rw [swapIfInBounds_twice] at hwalk
  exact ⟨memory', hwalk, length_inquiries_split hlen (congrArg Walk.result hwalk)⟩

theorem Rising.stays_segment (h : Rising c lo len buffer) (hc : IsPreorder c)
    (reads : Reads c ask) (hlen : lo + len ≤ buffer.size) :
    Stays ask buffer (segment lo len) () (fewestCalls len) := by
  induction len using Nat.strongRecOn generalizing lo with
  | ind len ih =>
    by_cases hone : 1 < len
    · have hlow := ih (len / 2) (by omega) (h.mono (by omega) (by omega))
        (show lo + len / 2 ≤ buffer.size by omega)
      have hhigh := ih (len - 1 - len / 2) (by omega)
        (h.mono (show lo ≤ lo + len / 2 + 1 by omega) (by omega)) (by omega)
      rw [segment, dif_pos hone, fewestCalls_of_middle (show 0 < len by omega) (.inl rfl)]
      -- nothing has moved, so both halves are rising still; only their turns depend on the parity
      refine (h.stays_split hc reads hlen hone).bind ?_
      split
      · exact hlow.bind hhigh
      · rw [Nat.add_comm (fewestCalls _)]
        exact hhigh.bind hlow
    · rw [segment_of_le_one (by omega)]
      refine fun memory => ⟨memory, rfl, ?_⟩
      obtain rfl | rfl : len = 0 ∨ len = 1 := by omega
      all_goals rfl

end

/-! ### The sort of a buffer -/

section
variable {σ ε : Type} {ask : Comparer σ ε Int32} {c : Int32 → Int32 → Int32} {buffer : Array Int32}
  {memory : σ}

theorem fewestCalls_le_calls (h : (byPosition ask buffer memory).result = .ok ()) :
    fewestCalls buffer.size ≤ (calls ask buffer memory).length := by
  obtain ⟨π, L, hcourse, -, hL⟩ := exists_course (within_segment 0 buffer.size) h
  rw [calls, inquiries_of_ok h, List.length_map, hL.length_eq]
  exact fewestCalls_le_length hcourse

theorem length_calls_of_undecided (h : ∀ q ∈ calls ask buffer memory, q.outcome = .ok 0) :
    (calls ask buffer memory).length = fewestCalls buffer.size := by
  obtain ⟨r, hresult⟩ := exists_result_of_answered fun q hq => ⟨0, h q hq⟩
  obtain ⟨π, L, hcourse, -, hL⟩ := exists_course (within_segment 0 buffer.size) hresult
  rw [calls, inquiries_of_ok hresult, List.forall_mem_map] at h
  rw [calls, inquiries_of_ok hresult, List.length_map, hL.length_eq]
  refine length_of_undecided hcourse fun v hv => ?_
  obtain ⟨reply, hreply, hsettles⟩ := exists_settles hL hv
  exact hsettles.answer.symm.trans (Except.ok.inj (h reply hreply))

theorem IsPreorder.sign_self (hc : IsPreorder c) (a : Int32) : sign (c a a) = .eq := by
  have h := hc.swap a a
  revert h
  cases sign (c a a) <;> decide

theorem sign_eq_eq_iff {answer : Int32} : sign answer = .eq ↔ answer = 0 := by
  unfold sign
  split_ifs with h₁ h₂
  · simpa using Int32.ne_of_lt h₁
  · simp [h₂]
  · simp [h₂]

/-- All elements of a buffer are alike. -/
def Level (buffer : Array Int32) : Prop := ∀ x ∈ buffer, ∀ y ∈ buffer, x = y

/-- Elements that are all alike are not told apart by an order. -/
theorem length_calls_of_level (hc : IsPreorder c) (reads : Reads c ask) (level : Level buffer) :
    (calls ask buffer memory).length = fewestCalls buffer.size := by
  have hresult : (byPosition ask buffer memory).result = .ok () := byPosition_result reads.sure
  obtain ⟨π, L, hcourse, -, hL⟩ := exists_course (within_segment 0 buffer.size) hresult
  -- an answer is told by where the two elements stand in the end, and they are alike there
  have harranged := arranged_of_course hcourse
  set final := (byPosition ask buffer memory).buffer
  have hperm : final.Perm buffer := byPosition_perm
  have hmem : ∀ p ∈ List.range' 0 buffer.size, p < final.size ∧ valueAt final p ∈ buffer := by
    intro p hp
    have hlt : p < final.size := by
      rw [hperm.size_eq]
      simpa using hp
    refine ⟨hlt, hperm.mem_iff.1 ?_⟩
    rw [valueAt, Array.getD_eq_getD_getElem?, Array.getElem?_eq_getElem hlt, Option.getD_some]
    exact Array.getElem_mem hlt
  rw [calls, inquiries_of_ok hresult, List.length_map, hL.length_eq]
  refine length_of_undecided hcourse fun v hv => ?_
  obtain ⟨hl, hleft⟩ := hmem _ (harranged.left_mem v hv)
  obtain ⟨hr, hright⟩ := hmem _ (harranged.right_mem v hv)
  have hsign : sign v.answer = sign (c (valueAt final v.left) (valueAt final v.right)) :=
    reads.sign_verdict hL hv hl hr
  rw [← sign_eq_eq_iff, hsign, level _ hleft _ hright]
  exact hc.sign_self _

/-- An order asks the fewest questions of a buffer that it finds in strict order, or all alike. -/
theorem length_calls_of_order (hc : IsPreorder c) (reads : Reads c ask)
    (h : Rising c 0 buffer.size buffer ∨ Level buffer) :
    (calls ask buffer memory).length = fewestCalls buffer.size := by
  rcases h with rising | level
  · obtain ⟨-, -, hlength⟩ := rising.stays_segment hc reads (Nat.le_of_eq (Nat.zero_add _)) memory
    exact hlength
  · exact length_calls_of_level hc reads level

theorem rising_ascending
    (h : ∀ p q, p < q → q < buffer.size → valueAt buffer p < valueAt buffer q) :
    Rising ascending 0 buffer.size buffer := by
  intro p q _ hpq hq
  rw [ascending, if_pos (h p q hpq (by omega))]
  decide

theorem ascendingCalls_eq (buffer : Array Int32) :
    ascendingCalls buffer = (calls (ε := Empty) countingAscending buffer 0).length := by
  let answer : Int32 → Int32 → Nat → Int32 × Nat := fun a b asked => (ascending a b, asked + 1)
  have hsign : ∀ a b asked, sign (answer a b asked).1 = sign (ascending a b) := fun _ _ _ => rfl
  have reads : Reads ascending (countingAscending (ε := Empty)) := reads_ofValues hsign
  have hcounted : (sortReplies (ε := Empty) countingAscending buffer 0).length =
      ascendingCalls buffer := length_sortReplies_of_ascending hsign buffer 0
  rw [calls, inquiries_of_ok (byPosition_result reads.sure), List.length_map, ← hcounted]
  rfl

end

/-- No sort of `n` elements, whatever the comparer answers, asks fewer than `fewestCalls n`
questions. No more are asked where no answer decides anything, and none of a buffer that stands in
strict order already or whose elements are all alike. -/
theorem calls_fewest {σ ε : Type} (ask : Comparer σ ε Int32) (buffer : Array Int32) (memory : σ) :
    let n := buffer.size
    let made := calls ask buffer memory
    (ask.Sure → fewestCalls n ≤ made.length) ∧
    ((∀ q ∈ made, q.outcome = .ok 0) → made.length = fewestCalls n) ∧
    (∀ c, IsPreorder c → Reads c ask → Rising c 0 n buffer ∨ Level buffer →
      made.length = fewestCalls n) ∧
    ((∀ p q, p < q → q < n → valueAt buffer p < valueAt buffer q) ∨ Level buffer →
      ascendingCalls buffer = fewestCalls n) ∧
    fewestCalls n ≤ n * Nat.log 2 n := by
  intro n made
  refine ⟨fun sure => ?_, length_calls_of_undecided, fun c hc reads h => ?_, fun h => ?_,
    fewestCalls_le_mul_log n⟩
  · exact fewestCalls_le_calls (byPosition_result sure)
  · exact length_calls_of_order hc reads h
  · rw [ascendingCalls_eq]
    exact length_calls_of_order isPreorder_ascending (reads_ofValues fun _ _ _ => rfl)
      (h.imp_left rising_ascending)

/-- Eleven elements in ascending order take the fewest questions, however large the answers. -/
theorem calls_fewest_ascending :
    let answer : Int32 → Int32 → Nat → Int32 × Nat := fun a b asked =>
      (7 * ascending a b, asked + 1)
    let ask : Comparer Nat Unit Int32 := ofValues answer
    let buffer : Array Int32 := #[-8, -3, 0, 1, 2, 5, 9, 12, 40, 41, 100]
    ask.Sure ∧ Reads ascending ask ∧ Rising ascending 0 11 buffer ∧
      fewestCalls 11 ≤ (calls ask buffer 0).length ∧ (calls ask buffer 0).length = 22 := by
  intro answer ask buffer
  have reads : Reads ascending ask := reads_ofValues fun a b _ => sign_mul_ascending a b
  have hpairs : ∀ q < 11, ∀ p < q, valueAt buffer p < valueAt buffer q := by decide
  have rising : Rising ascending 0 buffer.size buffer :=
    rising_ascending fun p q hpq hq => hpairs q hq p hpq
  have hleast : fewestCalls 11 = 22 := by decide
  obtain ⟨hmost, -, hexact, -⟩ := calls_fewest ask buffer 0
  have hmade := hexact ascending isPreorder_ascending reads (.inl rising)
  exact ⟨reads.sure, reads, rising, hmost reads.sure, hmade.trans hleast⟩

end CallBridge.Sort
