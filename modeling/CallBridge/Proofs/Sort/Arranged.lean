import CallBridge.Proofs.Sort.Split

/-!
# What a sort settles

`Arranged` is what the sort of a segment leads to, whatever the answers: it asks about no pair twice,
every element ends on the side of the other that the answer allows, and neighbours have been asked
about. A segment is arranged if it is split and both sides are arranged (`Split.arranged`); what
happens on one side later moves nothing on the other, nor the pivot.
-/

namespace CallBridge.Sort
open DecisionTree

/-- The verdicts of a sort of a segment, by the positions where the elements end. -/
structure Arranged (lo len : Nat) (L : List Verdict) : Prop where
  left_mem : ∀ v ∈ L, v.left ∈ List.range' lo len
  right_mem : ∀ v ∈ L, v.right ∈ List.range' lo len
  ne : ∀ v ∈ L, v.left ≠ v.right
  once : (L.map (·.pair)).Nodup
  before : ∀ v ∈ L, v.answer < 0 → v.left < v.right
  after : ∀ v ∈ L, 0 < v.answer → v.right < v.left
  adjacent : ∀ p, lo ≤ p → p + 1 < lo + len → ∃ v ∈ L, v.pair = s(p, p + 1)

namespace Arranged
variable {lo len : Nat} {L L' : List Verdict}

theorem perm (h : Arranged lo len L) (hp : L.Perm L') : Arranged lo len L' where
  left_mem v hv := h.left_mem v (hp.mem_iff.2 hv)
  right_mem v hv := h.right_mem v (hp.mem_iff.2 hv)
  ne v hv := h.ne v (hp.mem_iff.2 hv)
  once := (hp.map _).nodup_iff.1 h.once
  before v hv := h.before v (hp.mem_iff.2 hv)
  after v hv := h.after v (hp.mem_iff.2 hv)
  adjacent p hp₁ hp₂ := by
    obtain ⟨v, hv, hpair⟩ := h.adjacent p hp₁ hp₂
    exact ⟨v, hp.mem_iff.1 hv, hpair⟩

/-- What is moved elsewhere changes no verdict. -/
theorem map_eq_self (h : Arranged lo len L) {π : Equiv.Perm Nat}
    (hπ : ∀ p ∈ List.range' lo len, π p = p) : L.map (.map π) = L := by
  refine (List.map_congr_left fun v hv => ?_).trans L.map_id
  rw [Verdict.map, hπ _ (h.left_mem v hv), hπ _ (h.right_mem v hv)]
  rfl

/-- Only positions of the segment are asked about. -/
theorem mem_of_mem_pair (h : Arranged lo len L) {v : Verdict} (hv : v ∈ L) {p : Nat}
    (hp : p ∈ v.pair) : p ∈ List.range' lo len := by
  rcases Sym2.mem_iff.1 hp with rfl | rfl
  · exact h.left_mem v hv
  · exact h.right_mem v hv

theorem of_le_one (h : len ≤ 1) : Arranged lo len [] := by
  refine ⟨?_, ?_, ?_, List.nodup_nil, ?_, ?_, fun p hp₁ hp₂ => by omega⟩ <;> simp

/-- There are no more verdicts than pairs. -/
theorem length_le (h : Arranged lo len L) : L.length ≤ len * (len - 1) / 2 := by
  let segment := (List.range' lo len).toFinset
  have hsub : (L.map (·.pair)).toFinset ⊆ segment.offDiag.image Sym2.mk.uncurry := by
    intro e he
    obtain ⟨v, hv, rfl⟩ := List.mem_map.1 (List.mem_toFinset.1 he)
    refine Finset.mem_image.2 ⟨(v.left, v.right), Finset.mem_offDiag.2 ⟨?_, ?_, h.ne v hv⟩, rfl⟩
    · exact List.mem_toFinset.2 (h.left_mem v hv)
    · exact List.mem_toFinset.2 (h.right_mem v hv)
  have hcard : segment.card = len := by
    rw [List.toFinset_card_of_nodup (List.nodup_range' ..), List.length_range']
  have hle := Finset.card_le_card hsub
  rw [List.toFinset_card_of_nodup h.once, List.length_map] at hle
  rw [← Nat.choose_two_right, ← hcard]
  exact hle.trans (Sym2.card_image_offDiag segment).le

end Arranged

namespace Split
variable {lo len k : Nat} {L A B : List Verdict}

theorem left_mem (h : Split lo len k L) {v : Verdict} (hv : v ∈ L) :
    (lo ≤ v.left ∧ v.left < lo + k) ∨ (lo + k < v.left ∧ v.left < lo + k + 1 + (len - 1 - k)) := by
  have := h.asked.mem_iff.1 (List.mem_map_of_mem hv)
  simp only [List.mem_append, List.mem_range'_1] at this
  omega

/-- Every other position is asked about. -/
theorem exists_left (h : Split lo len k L) {q : Nat} (hlo : lo ≤ q) (hlen : q < lo + len)
    (hq : q ≠ lo + k) : ∃ v ∈ L, v.left = q ∧ v.right = lo + k := by
  have : q ∈ L.map (·.left) := h.asked.mem_iff.2 (by
    simp only [List.mem_append, List.mem_range'_1]
    omega)
  obtain ⟨v, hv, hleft⟩ := List.mem_map.1 this
  exact ⟨v, hv, hleft, h.right v hv⟩

/-- What happens on one side leaves the split as it is. -/
theorem map (h : Split lo len k L) (hk : k < len) {τ : Equiv.Perm Nat}
    (hτ : FixesOutside lo k τ ∨ FixesOutside (lo + k + 1) (len - 1 - k) τ) :
    Split lo len k (L.map fun v => v.map τ) := by
  have hpivot : τ (lo + k) = lo + k := by
    rcases hτ with hτ | hτ <;> exact hτ _ (by omega)
  have hinside : FixesOutside lo len τ := by
    rcases hτ with hτ | hτ <;> exact hτ.mono (by omega) (by omega)
  have hside : ∀ q, (τ q < lo + k → q < lo + k) ∧ (lo + k < τ q → lo + k < q) := by
    intro q
    rcases hτ with hτ | hτ
    all_goals
      have hfix := hτ q
      have hin := hτ.inside (p := q)
      omega
  refine ⟨?_, ?_, ?_, ?_⟩
  · have hall := (range'_perm_cons hk).symm.trans (hinside.perm_range'.symm.trans
      ((range'_perm_cons hk).map τ))
    rw [List.map_cons, hpivot] at hall
    have hleft : (L.map fun v => v.map τ).map (·.left) = (L.map (·.left)).map τ := by
      simp [Verdict.map, Function.comp_def]
    rw [hleft]
    exact (h.asked.map τ).trans hall.cons_inv.symm
  · simp only [List.forall_mem_map, Verdict.map]
    exact fun v hv => (congrArg τ (h.right v hv)).trans hpivot
  · simp only [List.forall_mem_map, Verdict.map]
    exact fun v hv hlt => h.low v hv ((hside _).1 hlt)
  · simp only [List.forall_mem_map, Verdict.map]
    exact fun v hv hgt => h.high v hv ((hside _).2 hgt)

theorem once (h : Split lo len k L) : (L.map (·.pair)).Nodup := by
  have hleft : (L.map (·.left)).Nodup := h.asked.nodup_iff.2 <|
    List.Nodup.append (List.nodup_range' ..) (List.nodup_range' ..) fun q h₁ h₂ => by
      rw [List.mem_range'_1] at h₁ h₂
      omega
  have hpair : L.map (·.pair) = (L.map (·.left)).map fun q => s(q, lo + k) := by
    rw [List.map_map]
    refine List.map_congr_left fun v hv => ?_
    simp [Verdict.pair, h.right v hv]
  rw [hpair]
  exact hleft.map fun q q' hq => Sym2.congr_left.1 hq

/-- A split asks about the pivot and the sides do not, and one side asks about nothing that the other
does. -/
theorem once_append (h : Split lo len k L) (hA : Arranged lo k A)
    (hB : Arranged (lo + k + 1) (len - 1 - k) B) : ((L ++ (A ++ B)).map (·.pair)).Nodup := by
  have hAin := @hA.mem_of_mem_pair
  have hBin := @hB.mem_of_mem_pair
  simp only [List.mem_range'_1] at hAin hBin
  rw [List.map_append, List.map_append]
  refine h.once.append (hA.once.append hB.once ?_) ?_
  · intro e heA heB
    obtain ⟨a, ha, rfl⟩ := List.mem_map.1 heA
    obtain ⟨b, hb, hba⟩ := List.mem_map.1 heB
    have hleft : a.left ∈ a.pair := Sym2.mem_mk_left ..
    have := hAin ha hleft
    have := hBin hb (hba ▸ hleft)
    omega
  · intro e heL heAB
    obtain ⟨v, hv, rfl⟩ := List.mem_map.1 heL
    have hpivot : lo + k ∈ v.pair := h.right v hv ▸ Sym2.mem_mk_right ..
    rcases List.mem_append.1 heAB with he | he
    · obtain ⟨a, ha, hav⟩ := List.mem_map.1 he
      have := hAin ha (hav ▸ hpivot)
      omega
    · obtain ⟨b, hb, hbv⟩ := List.mem_map.1 he
      have := hBin hb (hbv ▸ hpivot)
      omega

/-- Neighbours on one side are asked about there, and the split asks about those of the pivot. -/
theorem adjacent_append (h : Split lo len k L) (hA : Arranged lo k A)
    (hB : Arranged (lo + k + 1) (len - 1 - k) B) {p : Nat} (hlo : lo ≤ p)
    (hlen : p + 1 < lo + len) : ∃ v ∈ L ++ (A ++ B), v.pair = s(p, p + 1) := by
  by_cases h₁ : p + 1 < lo + k
  · obtain ⟨v, hv, hpair⟩ := hA.adjacent p hlo h₁
    exact ⟨v, by simp [hv], hpair⟩
  by_cases h₂ : p + 1 = lo + k
  · obtain ⟨v, hv, hleft, hright⟩ := h.exists_left (q := p) hlo (by omega) (by omega)
    exact ⟨v, by simp [hv], by rw [Verdict.pair, hleft, hright, h₂]⟩
  by_cases h₃ : p = lo + k
  · obtain ⟨v, hv, hleft, hright⟩ := h.exists_left (q := p + 1) (by omega) hlen (by omega)
    exact ⟨v, by simp [hv], by rw [Verdict.pair, hleft, hright, h₃, Sym2.eq_swap]⟩
  · obtain ⟨v, hv, hpair⟩ := hB.adjacent p (by omega) (by omega)
    exact ⟨v, by simp [hv], hpair⟩

/-- A segment that is split and whose two sides are arranged is arranged. -/
theorem arranged (h : Split lo len k L) (hk : k < len) (hA : Arranged lo k A)
    (hB : Arranged (lo + k + 1) (len - 1 - k) B) : Arranged lo len (L ++ (A ++ B)) := by
  have hmem := @left_mem lo len k L h
  have hAl := hA.left_mem
  have hAr := hA.right_mem
  have hBl := hB.left_mem
  have hBr := hB.right_mem
  simp only [List.mem_range'_1] at hAl hAr hBl hBr
  refine ⟨?_, ?_, ?_, h.once_append hA hB, ?_, ?_, fun p => h.adjacent_append hA hB⟩
  · simp only [List.mem_range'_1, List.forall_mem_append]
    exact ⟨fun v hv => by have := hmem hv; omega, fun v hv => by have := hAl v hv; omega,
      fun v hv => by have := hBl v hv; omega⟩
  · simp only [List.mem_range'_1, List.forall_mem_append]
    exact ⟨fun v hv => by rw [h.right v hv]; omega, fun v hv => by have := hAr v hv; omega,
      fun v hv => by have := hBr v hv; omega⟩
  · simp only [List.forall_mem_append]
    exact ⟨fun v hv => by rw [h.right v hv]; have := hmem hv; omega, hA.ne, hB.ne⟩
  · simp only [List.forall_mem_append]
    refine ⟨fun v hv hlt => ?_, hA.before, hB.before⟩
    have hside := hmem hv
    have hright := h.right v hv
    by_contra hge
    exact absurd hlt (Int32.not_lt.2 (h.high v hv (by omega)))
  · simp only [List.forall_mem_append]
    refine ⟨fun v hv hgt => ?_, hA.after, hB.after⟩
    have hside := hmem hv
    have hright := h.right v hv
    by_contra hle
    exact absurd hgt (Int32.not_lt.2 (h.low v hv (by omega)))

end Split

/-- Whatever the answers, the sort of a segment arranges it. -/
theorem arranged_of_course {lo len : Nat} {π : Equiv.Perm Nat} {L : List Verdict}
    (hc : (segment lo len).Course π L ()) : Arranged lo len L := by
  induction lo, len using segment.induct generalizing π L with
  | case1 lo len h low high _ =>
    rw [segment, dif_pos h] at hc
    obtain ⟨π₁, S, k, π₂, L₂, hsplit, hrest, -, rfl⟩ := hc.exists_of_bind
    have hS := split_of_course hsplit
    have hk := k.isLt
    split at hrest
    all_goals
      obtain ⟨π₃, L₃, _, π₄, L₄, h₃, h₄, rfl, rfl⟩ := hrest.exists_of_bind
      have f₃ := h₃.fixesOutside (within_segment ..)
      have f₄ := h₄.fixesOutside (within_segment ..)
      rw [Verdict.map_mul]
    · have hA := low k h₃
      have hB := high k h₄
      rw [hA.map_eq_self fun p hp => f₄ p (by rw [List.mem_range'_1] at hp; omega)]
      exact ((hS.map hk (.inl f₃)).map hk (.inr f₄)).arranged hk hA hB
    · have hB := high k h₃
      have hA := low k h₄
      rw [hB.map_eq_self fun p hp => f₄ p (by rw [List.mem_range'_1] at hp; omega)]
      exact (((hS.map hk (.inr f₃)).map hk (.inl f₄)).arranged hk hA hB).perm
        (List.perm_append_comm.append_left _)
  | case2 lo len h =>
    rw [segment_of_le_one (by omega)] at hc
    cases hc
    exact .of_le_one (by omega)

/-- The sort of a whole buffer with a comparer that does not fail ends with the buffer arranged. -/
theorem exists_arranged {σ ε α : Type} {ask : Comparer σ ε α} (sure : ask.Sure) (buffer : Array α)
    (memory : σ) :
    let walk := (segment 0 buffer.size).follow ask buffer memory
    walk.result = .ok () ∧ ∃ π L, Arranged 0 buffer.size L ∧ FixesOutside 0 buffer.size π ∧
      (∀ p : Nat, walk.buffer[π p]? = buffer[p]?) ∧
      List.Forall₂ (Settles walk.buffer) ((segment 0 buffer.size).replies ask buffer memory) L := by
  have hin := within_segment 0 buffer.size
  obtain ⟨_, hresult⟩ := exists_result sure memory hin
  obtain ⟨π, L, hcourse, hπ, hL⟩ := exists_course hin hresult
  exact ⟨hresult, π, L, arranged_of_course hcourse, hcourse.fixesOutside hin, hπ, hL⟩

end CallBridge.Sort
