import CallBridge.Sort.Exchange
import Mathlib.Algebra.Group.End
import Mathlib.Data.Sym.Card

/-!
# The course of a walk

What a comparer is asked on a walk, and where the elements go meanwhile. `replies` is what a
comparer notes that keeps a note of every question it answers. `Course` says what can come of a tree
under some answers or other: the permutation that takes each element to the position where it ends,
and the verdicts, which are the replies with the elements named by the positions where they end. A
course knows no buffer and no comparer; `exists_course` finds the one that a walk has taken.
-/

namespace CallBridge

/-- A reply of a comparer: the two positions asked about, the buffer as it stood, and the answer. -/
structure Reply (α : Type) where
  left : Nat
  right : Nat
  buffer : Array α
  answer : Int32

/-- An answer about two elements that are known by numbers. -/
structure Verdict where
  left : Nat
  right : Nat
  answer : Int32

namespace Verdict

/-- The two elements, in no order. -/
def pair (v : Verdict) : Sym2 Nat := s(v.left, v.right)

/-- The verdict with the elements numbered anew. -/
def map (f : Nat → Nat) (v : Verdict) : Verdict := ⟨f v.left, f v.right, v.answer⟩

theorem pair_map (f : Nat → Nat) (v : Verdict) : (v.map f).pair = v.pair.map f := rfl

theorem map_mul (π π' : Equiv.Perm Nat) (L : List Verdict) :
    L.map (map ⇑(π * π')) = (L.map (map π')).map (map π) := by
  rw [List.map_map]
  rfl

end Verdict

namespace Comparer
variable {σ ε α β : Type}

/-- The comparer that also notes its replies. -/
def noting (ask : Comparer σ ε α) : Comparer (σ × List (Reply α)) ε α :=
  fun left right buffer (memory, noted) =>
    match ask left right buffer memory with
    | (.ok answer, memory) => (.ok answer, memory, noted ++ [⟨left, right, buffer, answer⟩])
    | (.error e, memory) => (.error e, memory, noted)

/-- The comparer for a buffer of elements that it sees through `f` only. -/
def comap (f : β → α) (ask : Comparer σ ε α) : Comparer σ ε β :=
  fun left right buffer memory => ask left right (buffer.map f) memory

/-- A comparer that answers every question about positions of the buffer. -/
def Sure (ask : Comparer σ ε α) : Prop :=
  ∀ left right buffer memory, left < buffer.size → right < buffer.size →
    ∃ answer, (ask left right buffer memory).1 = .ok answer

theorem Sure.comap {ask : Comparer σ ε α} (h : ask.Sure) (f : β → α) : (ask.comap f).Sure :=
  fun left right buffer memory hl hr =>
    h left right _ memory (by simpa using hl) (by simpa using hr)

end Comparer

theorem map_swapIfInBounds {α β : Type} (f : α → β) (xs : Array α) (i j : Nat) :
    (xs.swapIfInBounds i j).map f = (xs.map f).swapIfInBounds i j := by
  apply Array.ext
  · simp
  · intro k h₁ h₂
    simp only [Array.getElem_map, Array.getElem_swapIfInBounds, Array.size_map]
    split_ifs <;> rfl

theorem getElem?_swapIfInBounds {α : Type} (xs : Array α) {i j : Nat} (hi : i < xs.size)
    (hj : j < xs.size) (k : Nat) : (xs.swapIfInBounds i j)[k]? = xs[Equiv.swap i j k]? := by
  rw [Equiv.swap_apply_def, Array.swapIfInBounds_def, dif_pos hi, dif_pos hj, Array.getElem?_swap]
  by_cases h₁ : k = i
  · subst h₁
    by_cases h₂ : k = j
    · subst h₂; simp [hi]
    · simp [hj, Ne.symm h₂]
  · by_cases h₂ : k = j
    · subst h₂; simp [hi, h₁]
    · simp [h₁, h₂, Ne.symm h₁, Ne.symm h₂]

/-- Exchanging two elements twice changes nothing. -/
theorem swapIfInBounds_twice {α : Type} (xs : Array α) (i j : Nat) :
    (xs.swapIfInBounds i j).swapIfInBounds i j = xs := by
  by_cases h : i < xs.size ∧ j < xs.size
  · have hsize : (xs.swapIfInBounds i j).size = xs.size := Array.size_swapIfInBounds
    apply Array.ext_getElem?
    intro k
    rw [getElem?_swapIfInBounds _ (by omega) (by omega), getElem?_swapIfInBounds _ h.1 h.2,
      Equiv.swap_apply_self]
  · simp only [Array.swapIfInBounds_def]
    split_ifs <;> first | rfl | omega

/-- Exchanging two elements keeps all of them. -/
theorem swapIfInBounds_perm {α : Type} (xs : Array α) (i j : Nat) :
    (xs.swapIfInBounds i j).Perm xs := by
  rw [Array.swapIfInBounds_def]
  split_ifs with hi hj
  · exact Array.swap_perm hi hj
  · exact Array.Perm.refl xs
  · exact Array.Perm.refl xs

namespace DecisionTree
variable {σ ε α β ρ τ : Type} {ask : Comparer σ ε α}

/-! ### What is asked -/

/-- The replies of a comparer along a walk. -/
def replies (ask : Comparer σ ε α) (t : DecisionTree ρ) (buffer : Array α) (memory : σ) :
    List (Reply α) :=
  (t.follow ask.noting buffer (memory, [])).memory.2

/-- Writing something down at every question changes nothing about a walk. -/
theorem follow_of_writes {κ : Type} {ask' : Comparer (σ × List κ) ε α}
    (entries : Nat → Nat → Array α → Except ε Int32 → List κ)
    (h : ∀ left right buffer memory written, ask' left right buffer (memory, written) =
      ((ask left right buffer memory).1, (ask left right buffer memory).2,
        written ++ entries left right buffer (ask left right buffer memory).1))
    (t : DecisionTree ρ) (buffer : Array α) (memory : σ) (written : List κ) :
    t.follow ask' buffer (memory, written) =
      let walk := t.follow ask buffer memory
      ⟨walk.result, walk.buffer, walk.memory,
        written ++ (t.follow ask' buffer (memory, [])).memory.2⟩ := by
  induction t generalizing buffer memory written with
  | done r => simp
  | exchange i j next ih => exact ih ..
  | compare left right next ih =>
    simp only [follow, h]
    rcases ask left right buffer memory with ⟨e | answer, memory⟩
    · simp
    · -- What is written first stands in front in both walks.
      have h₁ := ih (sign answer) buffer memory (written ++ entries left right buffer (.ok answer))
      have h₂ := ih (sign answer) buffer memory (entries left right buffer (.ok answer))
      simp only [List.nil_append]
      rw [h₁, h₂, List.append_assoc]

/-- Notes change nothing about a walk. -/
theorem follow_noting (t : DecisionTree ρ) (buffer : Array α) (memory : σ)
    (noted : List (Reply α)) :
    t.follow ask.noting buffer (memory, noted) =
      let walk := t.follow ask buffer memory
      ⟨walk.result, walk.buffer, walk.memory, noted ++ t.replies ask buffer memory⟩ := by
  refine follow_of_writes (fun left right buffer outcome =>
    match outcome with
    | .ok answer => [⟨left, right, buffer, answer⟩]
    | .error _ => []) (fun left right buffer memory noted => ?_) t buffer memory noted
  simp only [Comparer.noting]
  rcases ask left right buffer memory with ⟨e | answer, memory⟩ <;> simp

@[simp] theorem replies_done (r : ρ) (buffer : Array α) (memory : σ) :
    (done r).replies ask buffer memory = [] := rfl

@[simp] theorem replies_exchange (i j : Nat) (next : DecisionTree ρ) (buffer : Array α)
    (memory : σ) :
    (exchange i j next).replies ask buffer memory =
      next.replies ask (buffer.swapIfInBounds i j) memory := rfl

theorem replies_compare (left right : Nat) (next : Ordering → DecisionTree ρ) (buffer : Array α)
    (memory : σ) :
    (compare left right next).replies ask buffer memory =
      match ask left right buffer memory with
      | (.ok answer, memory) =>
        ⟨left, right, buffer, answer⟩ :: (next (sign answer)).replies ask buffer memory
      | (.error _, _) => [] := by
  simp only [replies, follow, Comparer.noting]
  rcases ask left right buffer memory with ⟨e | answer, memory⟩
  · rfl
  · simp only [List.nil_append]
    rw [follow_noting]
    rfl

/-- A reply is what the comparer answered. -/
theorem exists_of_mem_replies {t : DecisionTree ρ} {buffer : Array α} {memory : σ} {reply : Reply α}
    (h : reply ∈ t.replies ask buffer memory) :
    ∃ before after, ask reply.left reply.right reply.buffer before = (.ok reply.answer, after) := by
  induction t generalizing buffer memory with
  | done r => cases h
  | exchange i j next ih => exact ih h
  | compare left right next ih =>
    rw [replies_compare] at h
    rcases ha : ask left right buffer memory with ⟨e | answer, after⟩
    · simp [ha] at h
    · simp only [ha] at h
      rcases List.mem_cons.1 h with rfl | h
      · exact ⟨memory, after, ha⟩
      · exact ih _ h

/-- A walk of elements that are seen through `f` is the walk of what is seen of them. -/
theorem follow_comap (ask : Comparer σ ε α) (f : β → α) (t : DecisionTree ρ) (buffer : Array β)
    (memory : σ) :
    t.follow ask (buffer.map f) memory =
      let walk := t.follow (ask.comap f) buffer memory
      ⟨walk.result, walk.buffer.map f, walk.memory⟩ := by
  induction t generalizing buffer memory with
  | done r => rfl
  | exchange i j next ih =>
    simp only [follow]
    rw [← map_swapIfInBounds]
    exact ih ..
  | compare left right next ih =>
    simp only [follow, Comparer.comap]
    rcases ask left right (buffer.map f) memory with ⟨e | answer, memory⟩
    · rfl
    · exact ih ..

/-- Whatever the comparer, a walk keeps all elements. -/
theorem follow_perm (t : DecisionTree ρ) (buffer : Array α) (memory : σ) :
    (t.follow ask buffer memory).buffer.Perm buffer := by
  induction t generalizing buffer memory with
  | done r => exact Array.Perm.refl buffer
  | exchange i j next ih => exact (ih ..).trans (swapIfInBounds_perm buffer i j)
  | compare left right next ih =>
    simp only [follow]
    rcases ask left right buffer memory with ⟨e | answer, memory⟩
    · exact Array.Perm.refl buffer
    · exact ih ..

/-! ### Where it is asked -/

/-- All positions that a tree names lie in the segment of `len` positions from `lo` on. -/
def Within (lo len : Nat) : DecisionTree ρ → Prop
  | done _ => True
  | exchange i j next =>
    (lo ≤ i ∧ i < lo + len) ∧ (lo ≤ j ∧ j < lo + len) ∧ next.Within lo len
  | compare left right next =>
    (lo ≤ left ∧ left < lo + len) ∧ (lo ≤ right ∧ right < lo + len) ∧
      ∀ o, (next o).Within lo len

namespace Within
variable {lo len : Nat}

theorem bind {t : DecisionTree ρ} {f : ρ → DecisionTree τ} (ht : t.Within lo len)
    (hf : ∀ r, (f r).Within lo len) : (t.bind f).Within lo len := by
  induction t with
  | done r => exact hf r
  | exchange i j next ih => exact ⟨ht.1, ht.2.1, ih ht.2.2⟩
  | compare left right next ih => exact ⟨ht.1, ht.2.1, fun o => ih o (ht.2.2 o)⟩

theorem mono {t : DecisionTree ρ} {lo' len' : Nat} (ht : t.Within lo len) (h : lo' ≤ lo)
    (h' : lo + len ≤ lo' + len') : t.Within lo' len' := by
  induction t with
  | done r => trivial
  | exchange i j next ih =>
    obtain ⟨hi, hj, ht⟩ := ht
    exact ⟨by omega, by omega, ih ht⟩
  | compare left right next ih =>
    obtain ⟨hl, hr, ht⟩ := ht
    exact ⟨by omega, by omega, fun o => ih o (ht o)⟩

end Within

/-- A walk inside the buffer comes to its end if every question is answered. -/
theorem exists_result {t : DecisionTree ρ} (sure : ask.Sure) {buffer : Array α} (memory : σ)
    (ht : t.Within 0 buffer.size) : ∃ r, (t.follow ask buffer memory).result = .ok r := by
  induction t generalizing buffer memory with
  | done r => exact ⟨r, rfl⟩
  | exchange i j next ih =>
    exact ih _ (by rw [Array.size_swapIfInBounds]; exact ht.2.2)
  | compare left right next ih =>
    obtain ⟨hl, hr, hnext⟩ := ht
    obtain ⟨answer, ha⟩ := sure left right buffer memory (by omega) (by omega)
    rcases h : ask left right buffer memory with ⟨e | answer', memory'⟩
    · rw [h] at ha; cases ha
    · simp only [follow, h]
      exact ih _ _ (hnext _)

/-! ### What comes of it -/

/-- Under some answers or other the tree ends with `r`: the element at each position ends at the one
that `π` gives, and `L` are the verdicts, by the positions where the elements end. -/
inductive Course : DecisionTree ρ → Equiv.Perm Nat → List Verdict → ρ → Prop where
  | done (r : ρ) : Course (done r) 1 [] r
  | exchange {i j : Nat} {next : DecisionTree ρ} {π : Equiv.Perm Nat} {L : List Verdict} {r : ρ}
      (h : Course next π L r) : Course (exchange i j next) (π * Equiv.swap i j) L r
  | compare {left right : Nat} {next : Ordering → DecisionTree ρ} {π : Equiv.Perm Nat}
      {L : List Verdict} {r : ρ} (answer : Int32) (h : Course (next (sign answer)) π L r) :
      Course (compare left right next) π (⟨π left, π right, answer⟩ :: L) r

/-- A permutation that moves nothing outside a segment. -/
def FixesOutside (lo len : Nat) (π : Equiv.Perm Nat) : Prop :=
  ∀ p, p < lo ∨ lo + len ≤ p → π p = p

namespace FixesOutside
variable {lo len : Nat} {π π' : Equiv.Perm Nat}

theorem mul (h : FixesOutside lo len π) (h' : FixesOutside lo len π') :
    FixesOutside lo len (π * π') := fun p hp => by
  rw [Equiv.Perm.mul_apply, h' p hp, h p hp]

theorem mono {lo' len' : Nat} (h : FixesOutside lo len π) (hlo : lo' ≤ lo)
    (hlen : lo + len ≤ lo' + len') : FixesOutside lo' len' π :=
  fun p hp => h p (by omega)

/-- What lies inside stays inside. -/
theorem inside (h : FixesOutside lo len π) {p : Nat} (hp : lo ≤ p ∧ p < lo + len) :
    lo ≤ π p ∧ π p < lo + len := by
  by_contra hc
  have hfix : π (π p) = π p := h (π p) (by omega)
  have := π.injective hfix
  omega

theorem symm (h : FixesOutside lo len π) : FixesOutside lo len π.symm := fun p hp => by
  rw [Equiv.symm_apply_eq, h p hp]

/-- The positions of the segment are put in another order. -/
theorem perm_range' (h : FixesOutside lo len π) :
    ((List.range' lo len).map π).Perm (List.range' lo len) := by
  refine List.Subperm.perm_of_length_le ?_ (by simp)
  refine List.subperm_of_subset ((List.nodup_range' ..).map π.injective) fun q hq => ?_
  obtain ⟨p, hp, rfl⟩ := List.mem_map.1 hq
  rw [List.mem_range'_1] at hp ⊢
  exact h.inside hp

end FixesOutside

namespace Course
variable {t : DecisionTree ρ} {π : Equiv.Perm Nat} {L : List Verdict} {r : ρ} {lo len : Nat}

theorem fixesOutside (h : t.Course π L r) (ht : t.Within lo len) : FixesOutside lo len π := by
  induction h with
  | done r => exact fun _ _ => rfl
  | exchange _ ih =>
    obtain ⟨hi, hj, ht⟩ := ht
    exact (ih ht).mul fun p hp => Equiv.swap_apply_of_ne_of_ne (by omega) (by omega)
  | compare answer _ ih => exact ih (ht.2.2 _)

/-- A course of two trees, one after the other: the verdicts of the first are told by where the
second takes the elements. -/
theorem exists_of_bind {f : ρ → DecisionTree τ} {s : τ} (h : (t.bind f).Course π L s) :
    ∃ π₁ L₁ r π₂ L₂, t.Course π₁ L₁ r ∧ (f r).Course π₂ L₂ s ∧
      π = π₂ * π₁ ∧ L = L₁.map (.map π₂) ++ L₂ := by
  induction t generalizing π L with
  | done r => exact ⟨1, [], r, π, L, .done r, h, by simp, by simp⟩
  | exchange i j next ih =>
    cases h with
    | exchange h =>
      obtain ⟨π₁, L₁, r, π₂, L₂, h₁, h₂, rfl, rfl⟩ := ih h
      exact ⟨π₁ * Equiv.swap i j, L₁, r, π₂, L₂, .exchange h₁, h₂, mul_assoc .., rfl⟩
  | compare left right next ih =>
    cases h with
    | compare answer h =>
      obtain ⟨π₁, L₁, r, π₂, L₂, h₁, h₂, rfl, rfl⟩ := ih _ h
      exact ⟨π₁, _, r, π₂, L₂, .compare answer h₁, h₂, rfl, rfl⟩

end Course

/-- A reply says what a verdict says of the elements as they end. -/
structure Settles (final : Array α) (reply : Reply α) (v : Verdict) : Prop where
  left : reply.buffer[reply.left]? = final[v.left]?
  right : reply.buffer[reply.right]? = final[v.right]?
  answer : reply.answer = v.answer

/-- A walk inside the buffer that comes to its end takes a course. -/
theorem exists_course {t : DecisionTree ρ} {buffer : Array α} {memory : σ} {r : ρ}
    (ht : t.Within 0 buffer.size) (h : (t.follow ask buffer memory).result = .ok r) :
    ∃ π L, t.Course π L r ∧
      (∀ p : Nat, (t.follow ask buffer memory).buffer[π p]? = buffer[p]?) ∧
      List.Forall₂ (Settles (t.follow ask buffer memory).buffer) (t.replies ask buffer memory)
        L := by
  induction t generalizing buffer memory with
  | done s =>
    obtain rfl : s = r := by simpa using h
    exact ⟨1, [], .done s, fun _ => rfl, .nil⟩
  | exchange i j next ih =>
    obtain ⟨hi, hj, ht⟩ := ht
    obtain ⟨π, L, hc, hπ, hL⟩ := ih (by rw [Array.size_swapIfInBounds]; exact ht) h
    refine ⟨π * Equiv.swap i j, L, .exchange hc, fun p => ?_, hL⟩
    rw [Equiv.Perm.mul_apply]
    refine (hπ _).trans ?_
    rw [getElem?_swapIfInBounds buffer (by omega) (by omega), Equiv.swap_apply_self]
  | compare left right next ih =>
    obtain ⟨hl, hr, hnext⟩ := ht
    rw [replies_compare]
    simp only [follow] at h ⊢
    rcases ha : ask left right buffer memory with ⟨e | answer, memory'⟩
    · simp [ha] at h
    · simp only [ha] at h ⊢
      obtain ⟨π, L, hc, hπ, hL⟩ := ih _ (hnext _) h
      refine ⟨π, _, .compare answer hc, hπ, .cons ⟨?_, ?_, rfl⟩ hL⟩
      · exact (hπ left).symm
      · exact (hπ right).symm

end DecisionTree
end CallBridge
