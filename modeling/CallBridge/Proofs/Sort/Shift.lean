import CallBridge.Proofs.Sort.Inquiry

/-!
# A sort within a larger buffer

The sort of a segment is the sort of a segment at the beginning, with all positions moved
(`segment_add`). A walk that keeps to a part of a buffer is the walk of this part alone: it comes to
the same end, leaves what stands around the part untouched, and asks the same questions, with all
positions moved (`follow_shift`).
-/

namespace CallBridge

theorem append_swapIfInBounds {α : Type} (front xs back : Array α) {i j : Nat} (hi : i < xs.size)
    (hj : j < xs.size) :
    (front ++ xs ++ back).swapIfInBounds (front.size + i) (front.size + j) =
      front ++ xs.swapIfInBounds i j ++ back := by
  apply Array.ext
  · simp
  · intro k h₁ h₂
    simp only [Array.getElem_swapIfInBounds, Array.getElem_append, Array.size_append]
    grind

/-- The question about a part of a buffer, asked of the buffer with the part in its place. -/
def Inquiry.within {ε α : Type} (front back : Array α) (q : Inquiry ε α) : Inquiry ε α :=
  ⟨front.size + q.left, front.size + q.right, front ++ q.buffer ++ back, q.outcome⟩

namespace DecisionTree
variable {σ ε α ρ τ : Type}

/-- The tree with all positions moved by `n`. -/
def shift (n : Nat) : DecisionTree ρ → DecisionTree ρ
  | done r => done r
  | exchange i j next => exchange (n + i) (n + j) (next.shift n)
  | compare left right next => compare (n + left) (n + right) fun o => (next o).shift n

theorem shift_bind (n : Nat) (t : DecisionTree ρ) (f : ρ → DecisionTree τ) :
    (t.bind f).shift n = (t.shift n).bind fun r => (f r).shift n := by
  induction t with
  | done r => rfl
  | exchange i j next ih => exact congrArg (exchange (n + i) (n + j)) ih
  | compare left right next ih => exact congrArg (compare (n + left) (n + right)) (funext ih)

/-- A walk of a part of a buffer, by a comparer that answers for the buffer as another one does for
the part alone. -/
theorem follow_shift {ask ask' : Comparer σ ε α} {front back : Array α} {n : Nat}
    (h : ∀ left right buffer memory, left < n → right < n → buffer.size = n →
      ask (front.size + left) (front.size + right) (front ++ buffer ++ back) memory =
        ask' left right buffer memory)
    {t : DecisionTree ρ} (ht : t.Within 0 n) {buffer : Array α} (hn : buffer.size = n)
    (memory : σ) :
    let walk := t.follow ask' buffer memory
    (t.shift front.size).follow ask (front ++ buffer ++ back) memory =
        ⟨walk.result, front ++ walk.buffer ++ back, walk.memory⟩ ∧
      (t.shift front.size).inquiries ask (front ++ buffer ++ back) memory =
        (t.inquiries ask' buffer memory).map (·.within front back) := by
  induction t generalizing buffer memory with
  | done r => exact ⟨rfl, rfl⟩
  | exchange i j next ih =>
    obtain ⟨hi, hj, hnext⟩ := ht
    have hswap := append_swapIfInBounds front buffer back (i := i) (j := j) (by omega) (by omega)
    simp only [shift, follow, inquiries_exchange, hswap]
    exact ih hnext (by rw [Array.size_swapIfInBounds, hn]) memory
  | compare left right next ih =>
    obtain ⟨hl, hr, hnext⟩ := ht
    have hask := h left right buffer memory (by omega) (by omega) hn
    simp only [shift, follow, inquiries_compare, hask]
    rcases ask' left right buffer memory with ⟨e | answer, memory⟩
    · exact ⟨rfl, rfl⟩
    · obtain ⟨hwalk, hasked⟩ := ih (sign answer) (hnext _) hn memory
      exact ⟨hwalk, congrArg (List.cons _) hasked⟩

end DecisionTree
end CallBridge

namespace CallBridge.Sort
open DecisionTree

theorem scans_add (n lo len : Nat) :
    (∀ p r h, fromFront (n + lo) len p r h = (fromFront lo len p r h).shift n) ∧
    (∀ p r h, fromBack (n + lo) len p r h = (fromBack lo len p r h).shift n) := by
  refine fromFront.mutual_induct len
    (fun p r h => fromFront (n + lo) len p r h = (fromFront lo len p r h).shift n)
    (fun p r h => fromBack (n + lo) len p r h = (fromBack lo len p r h).shift n) ?_ ?_ ?_ ?_ ?_
  · intro p h _
    rw [fromFront, fromFront, Nat.add_assoc]
    rfl
  · intro p r h _ front back
    rw [fromFront, fromFront, shift]
    simp only [Nat.add_assoc]
    refine congrArg _ (funext fun o => ?_)
    cases o with
    | lt => exact front
    | eq => exact back
    | gt => exact back
  · intro p h _
    rw [fromBack, fromBack, Nat.add_assoc]
    rfl
  · intro p h _
    rw [fromBack, fromBack, Nat.add_assoc]
    rfl
  · intro p r h _ back front
    rw [fromBack, fromBack, shift]
    simp only [Nat.add_assoc]
    refine congrArg _ (funext fun o => ?_)
    cases o with
    | gt => exact back
    | lt => exact congrArg _ front
    | eq => exact congrArg _ front

theorem split_add (n lo len : Nat) (h : 1 < len) :
    split (n + lo) len h = (split lo len h).shift n := by
  rw [split, split, (scans_add n lo len).1, Nat.add_assoc]
  rfl

theorem segment_add (n lo len : Nat) : segment (n + lo) len = (segment lo len).shift n := by
  induction lo, len using segment.induct with
  | case1 lo len h low high _ =>
    rw [segment, segment, dif_pos h, dif_pos h, split_add, shift_bind]
    refine congrArg _ (funext fun pivot => ?_)
    have hhigh : segment (n + lo + pivot + 1) (len - 1 - pivot) =
        (segment (lo + pivot + 1) (len - 1 - pivot)).shift n := by
      rw [← high pivot, Nat.add_assoc n, Nat.add_assoc n]
    rw [low pivot, hhigh]
    split
    · rw [shift_bind]
    · rw [shift_bind]
  | case2 lo len h =>
    rw [segment_of_le_one (by omega), segment_of_le_one (by omega)]
    rfl

end CallBridge.Sort
