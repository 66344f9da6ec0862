import CallBridge.Proofs.Sort.Arranged
import CallBridge.Sort.Buffer

/-!
# A sort followed element by element

The elements of a buffer are told apart by the positions they stand at before the sort: `tracked` is
the sort with each element carrying this number, which the comparer does not see, and with all replies
noted. `Respected` says of the numbers in their final order and of the verdicts, by these numbers,
that the sort takes every answer at its word and asks for nothing twice. It holds of any comparer
that does not fail.
-/

namespace CallBridge.Sort
open DecisionTree

variable {σ ε : Type}

/-- The sort of a buffer whose elements carry their first positions, with the replies noted. -/
def tracked (ask : Comparer σ ε Int32) (buffer : Array Int32) (memory : σ) :
    Walk (σ × List (Reply (Int32 × Nat))) ε (Int32 × Nat) Unit :=
  (segment 0 buffer.size).follow (ask.comap (·.1)).noting buffer.zipIdx (memory, [])

/-- The number carried by the element at a position. -/
def numberAt (buffer : Array (Int32 × Nat)) (i : Nat) : Nat := (buffer.getD i (0, i)).2

/-- A reply by the numbers of the two elements. -/
def numbered (reply : Reply (Int32 × Nat)) : Verdict :=
  ⟨numberAt reply.buffer reply.left, numberAt reply.buffer reply.right, reply.answer⟩

/-- The order of `n` elements respects all verdicts, which are on each pair at most once and on all
neighbours. -/
structure Respected (n : Nat) (order : List Nat) (verdicts : List Verdict) : Prop where
  all : order.Perm (List.range n)
  left_mem : ∀ v ∈ verdicts, v.left ∈ order
  right_mem : ∀ v ∈ verdicts, v.right ∈ order
  ne : ∀ v ∈ verdicts, v.left ≠ v.right
  once : (verdicts.map (·.pair)).Nodup
  few : verdicts.length ≤ n * (n - 1) / 2
  before : ∀ v ∈ verdicts, v.answer < 0 → order.idxOf v.left < order.idxOf v.right
  after : ∀ v ∈ verdicts, 0 < v.answer → order.idxOf v.right < order.idxOf v.left
  adjacent : ∀ p (h : p + 1 < order.length), ∃ v ∈ verdicts, v.pair = s(order[p], order[p + 1])

variable {ask : Comparer σ ε Int32} {buffer : Array Int32} {memory : σ}

theorem tracked_eq :
    tracked ask buffer memory =
      let walk := (segment 0 buffer.size).follow (ask.comap (·.1)) buffer.zipIdx memory
      ⟨walk.result, walk.buffer, walk.memory,
        (segment 0 buffer.size).replies (ask.comap (·.1)) buffer.zipIdx memory⟩ := by
  rw [tracked, follow_noting, List.nil_append]

/-- Without the numbers and notes it is the sort itself. -/
theorem byPosition_eq_tracked :
    byPosition ask buffer memory =
      let walk := tracked ask buffer memory
      ⟨walk.result, walk.buffer.map (·.1), walk.memory.1⟩ := by
  have h := follow_comap ask (·.1) (segment 0 buffer.size) buffer.zipIdx memory
  rw [Array.zipIdx_map_fst] at h
  rw [tracked_eq]
  exact h

theorem tracked_perm : (tracked ask buffer memory).buffer.Perm buffer.zipIdx := follow_perm ..

theorem numberAt_of_getElem? {buffer : Array (Int32 × Nat)} {i : Nat} {x : Int32 × Nat}
    (h : buffer[i]? = some x) : numberAt buffer i = x.2 := by
  rw [numberAt, Array.getD_eq_getD_getElem?, h, Option.getD_some]

/-- Replies that settle into verdicts by the final positions are these verdicts by the numbers. -/
theorem map_numbered {final : Array (Int32 × Nat)} {f : Nat → Nat} {n : Nat}
    (hf : ∀ p < n, ∃ x, final[p]? = some x ∧ x.2 = f p) {replies : List (Reply (Int32 × Nat))}
    {L : List Verdict} (h : List.Forall₂ (Settles final) replies L)
    (hl : ∀ v ∈ L, v.left < n) (hr : ∀ v ∈ L, v.right < n) :
    replies.map numbered = L.map (Verdict.map f) := by
  induction h with
  | nil => rfl
  | @cons reply v replies L hs _ ih =>
    rw [List.forall_mem_cons] at hl hr
    obtain ⟨x, hx, hxf⟩ := hf v.left hl.1
    obtain ⟨y, hy, hyf⟩ := hf v.right hr.1
    have hhead : numbered reply = v.map f := by
      rw [numbered, numberAt_of_getElem? (hs.left.trans hx),
        numberAt_of_getElem? (hs.right.trans hy),
        hxf, hyf, hs.answer]
      rfl
    rw [List.map_cons, List.map_cons, hhead, ih hl.2 hr.2]

/-- An arranged buffer respects its verdicts once the elements are called by where they come from. -/
theorem Arranged.respected {n : Nat} {L : List Verdict} (h : Arranged 0 n L) {π : Equiv.Perm Nat}
    {order : List Nat} (horder : order.Perm (List.range n))
    (hπ : ∀ p (hp : p < order.length), order[p] = π p) :
    Respected n order (L.map (Verdict.map π)) := by
  have hlen : order.length = n := by simpa using horder.length_eq
  have hmem : ∀ p ∈ List.range' 0 n, π p ∈ order := by
    intro p hp
    rw [List.mem_range'_1] at hp
    rw [← hπ p (by omega)]
    exact List.getElem_mem _
  have hidx : ∀ p ∈ List.range' 0 n, order.idxOf (π p) = p := by
    intro p hp
    rw [List.mem_range'_1] at hp
    rw [← hπ p (by omega)]
    exact (horder.nodup_iff.2 List.nodup_range).idxOf_getElem ..
  refine ⟨horder, ?_, ?_, ?_, ?_, ?_, ?_, ?_, ?_⟩
  · simp only [List.forall_mem_map]
    exact fun v hv => hmem _ (h.left_mem v hv)
  · simp only [List.forall_mem_map]
    exact fun v hv => hmem _ (h.right_mem v hv)
  · simp only [List.forall_mem_map]
    exact fun v hv heq => h.ne v hv (π.injective heq)
  · have hpair : (L.map (Verdict.map π)).map (·.pair) = (L.map (·.pair)).map (Sym2.map π) := by
      rw [List.map_map, List.map_map]
      rfl
    rw [hpair]
    exact h.once.map (Sym2.map.injective π.injective)
  · rw [List.length_map]
    exact h.length_le
  · simp only [List.forall_mem_map]
    intro v hv hlt
    have hl : order.idxOf (v.map π).left = v.left := hidx _ (h.left_mem v hv)
    have hr : order.idxOf (v.map π).right = v.right := hidx _ (h.right_mem v hv)
    rw [hl, hr]
    exact h.before v hv hlt
  · simp only [List.forall_mem_map]
    intro v hv hgt
    have hl : order.idxOf (v.map π).left = v.left := hidx _ (h.left_mem v hv)
    have hr : order.idxOf (v.map π).right = v.right := hidx _ (h.right_mem v hv)
    rw [hl, hr]
    exact h.after v hv hgt
  · intro p hp
    obtain ⟨v, hv, hpair⟩ := h.adjacent p (by omega) (by omega)
    refine ⟨v.map π, List.mem_map_of_mem hv, ?_⟩
    rw [Verdict.pair_map, hpair, hπ, hπ]
    rfl

/-- Whatever a comparer answers, as long as it answers: the sort comes to its end, asks about no pair
twice, ends in an order that respects every answer, and has asked about all that end side by side. -/
theorem tracked_respected (sure : ask.Sure) (buffer : Array Int32) (memory : σ) :
    let walk := tracked ask buffer memory
    (byPosition ask buffer memory).result = .ok () ∧
      (byPosition ask buffer memory).buffer = walk.buffer.map (·.1) ∧
      (byPosition ask buffer memory).memory = walk.memory.1 ∧
      walk.buffer.Perm buffer.zipIdx ∧
      Respected buffer.size (walk.buffer.map (·.2)).toList (walk.memory.2.map numbered) := by
  intro walk
  obtain ⟨hresult, π, L, harr, hfix, hπ, hL⟩ :=
    exists_arranged (sure.comap (·.1)) buffer.zipIdx memory
  rw [Array.size_zipIdx] at hresult harr hfix hπ hL
  have hwalk : walk = ⟨_, _, _, _⟩ := tracked_eq
  have hfinal : ∀ p < buffer.size, ∃ x, walk.buffer[p]? = some x ∧ x.2 = π.symm p := by
    intro p hp
    have hfrom : π.symm p < buffer.size := by
      have := hfix.symm.inside (p := p) (by omega)
      omega
    refine ⟨(buffer[π.symm p], π.symm p), ?_, rfl⟩
    have hp' := hπ (π.symm p)
    rw [Equiv.apply_symm_apply, Array.getElem?_zipIdx, Array.getElem?_eq_getElem hfrom,
      Option.map_some, Nat.zero_add] at hp'
    rw [hwalk]
    exact hp'
  have hverdicts : walk.memory.2.map numbered = L.map (Verdict.map π.symm) := by
    refine map_numbered (n := buffer.size) hfinal ?_ (fun v hv => ?_) fun v hv => ?_
    · rw [hwalk]
      exact hL
    · simpa using (List.mem_range'_1.1 (harr.left_mem v hv)).2
    · simpa using (List.mem_range'_1.1 (harr.right_mem v hv)).2
  have horder : (walk.buffer.map (·.2)).toList.Perm (List.range buffer.size) := by
    rw [Array.toList_map, List.range_eq_range', ← Array.toList_range', ← Array.zipIdx_map_snd,
      Array.toList_map]
    exact tracked_perm.toList.map _
  refine ⟨?_, ?_, ?_, tracked_perm, ?_⟩
  · rw [byPosition_eq_tracked]
    exact (congrArg Walk.result hwalk).trans hresult
  · rw [byPosition_eq_tracked]
  · rw [byPosition_eq_tracked]
  · rw [hverdicts]
    refine harr.respected horder fun p hp => ?_
    obtain ⟨x, hx, hxp⟩ := hfinal p (by simpa using hp.trans_eq horder.length_eq)
    rw [← hxp, Array.getElem_toList, Array.getElem_map]
    exact congrArg Prod.snd (Option.some.inj ((Array.getElem?_eq_getElem _).symm.trans hx))

/-- Answers by turns, whatever is asked, are respected too. -/
theorem tracked_respected_by_turns :
    let ask : Comparer Nat Unit Int32 := fun _ _ _ asked =>
      (.ok (if asked % 2 = 0 then -1 else 1), asked + 1)
    let buffer : Array Int32 := #[3, 1, 2, 1, 2, 3]
    let walk := tracked ask buffer 0
    ask.Sure ∧ (byPosition ask buffer 0).result = .ok () ∧
      (byPosition ask buffer 0).buffer = walk.buffer.map (·.1) ∧
      (byPosition ask buffer 0).memory = walk.memory.1 ∧ walk.buffer.Perm buffer.zipIdx ∧
      Respected 6 (walk.buffer.map (·.2)).toList (walk.memory.2.map numbered) := by
  intro ask buffer walk
  have sure : ask.Sure := fun _ _ _ _ _ _ => ⟨_, rfl⟩
  exact ⟨sure, tracked_respected sure buffer 0⟩

end CallBridge.Sort
