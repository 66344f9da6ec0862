import CallBridge.Proofs.Sort.Arranged
import CallBridge.Sort.Buffer

/-!
# The order a sort leads to

Of any comparer, however inconsistent, the sort respects every single answer (`Arranged`). So of one
whose answers belong to an order it makes a buffer in this order: neighbours have been asked about,
and their order carries over to all others.
-/

namespace CallBridge.Sort
open DecisionTree

variable {σ ε : Type}

/-! ### Comparers that belong to an order -/

/-- A comparison of values that puts them in an order, ties allowed. -/
structure IsPreorder (c : Int32 → Int32 → Int32) : Prop where
  swap : ∀ a b, sign (c a b) = (sign (c b a)).swap
  trans : ∀ a b d, c a b ≤ 0 → c b d ≤ 0 → c a d ≤ 0

/-- Values that are compared by a number are put in an order. -/
theorem IsPreorder.of_key {c : Int32 → Int32 → Int32} (key : Int32 → Int)
    (h : ∀ a b, sign (c a b) = compare (key a) (key b)) : IsPreorder c where
  swap a b := by rw [h, h, Int.compare_swap]
  trans a b d hab hbd := by
    rw [← sign_ne_gt_iff, h, Ne, Int.compare_eq_gt] at hab hbd ⊢
    omega

theorem IsPreorder.reverse {c : Int32 → Int32 → Int32} (hc : IsPreorder c) :
    IsPreorder fun a b => c b a where
  swap a b := hc.swap b a
  trans a b d hab hbd := hc.trans d b a hbd hab

/-- A comparer that reads the two elements named and answers to the sign of `c`. -/
def Reads (c : Int32 → Int32 → Int32) (ask : Comparer σ ε Int32) : Prop :=
  ∀ left right buffer memory, left < buffer.size → right < buffer.size →
    ∃ answer, (ask left right buffer memory).1 = .ok answer ∧
      sign answer = sign (c (valueAt buffer left) (valueAt buffer right))

def Ordered (c : Int32 → Int32 → Int32) (buffer : Array Int32) : Prop :=
  ∀ p q, p < q → q < buffer.size → c (valueAt buffer p) (valueAt buffer q) ≤ 0

variable {c : Int32 → Int32 → Int32} {ask : Comparer σ ε Int32} {buffer : Array Int32} {memory : σ}

theorem Reads.sure (h : Reads c ask) : ask.Sure := fun _ _ _ _ hl hr => by
  obtain ⟨answer, ha, -⟩ := h _ _ _ _ hl hr
  exact ⟨answer, ha⟩

theorem reads_ofValues {answer : Int32 → Int32 → σ → Int32 × σ}
    (h : ∀ a b memory, sign (answer a b memory).1 = sign (c a b)) :
    Reads c (ofValues answer : Comparer σ ε Int32) :=
  fun _ _ _ _ _ _ => ⟨_, rfl, h ..⟩

theorem valueAt_congr {buffer buffer' : Array Int32} {i j : Nat} (h : buffer[i]? = buffer'[j]?) :
    valueAt buffer i = valueAt buffer' j := by
  simp only [valueAt, Array.getD_eq_getD_getElem?, h]

theorem lt_size_congr {α : Type} {xs ys : Array α} {i j : Nat} (h : xs[i]? = ys[j]?)
    (hj : j < ys.size) : i < xs.size := by
  by_contra hi
  rw [Array.getElem?_eq_none (by omega), Array.getElem?_eq_getElem hj] at h
  cases h

/-- Elements in order with their neighbours are in order with all that follow. -/
theorem IsPreorder.ordered (hc : IsPreorder c)
    (h : ∀ p, p + 1 < buffer.size → c (valueAt buffer p) (valueAt buffer (p + 1)) ≤ 0) :
    Ordered c buffer := by
  intro p q hpq
  induction q, hpq using Nat.le_induction with
  | base => exact h p
  | succ q _ ih => exact fun hq => hc.trans _ _ _ (ih (by omega)) (h q hq)

/-- A verdict on two neighbours puts them in order. -/
theorem IsPreorder.neighbours (hc : IsPreorder c) {lo len p : Nat} {L : List Verdict}
    (hL : Arranged lo len L) {v : Verdict} (hv : v ∈ L) (hpair : v.pair = s(p, p + 1))
    (ha : sign v.answer = sign (c (valueAt buffer v.left) (valueAt buffer v.right))) :
    c (valueAt buffer p) (valueAt buffer (p + 1)) ≤ 0 := by
  rcases Sym2.eq_iff.1 hpair with ⟨hl, hr⟩ | ⟨hl, hr⟩ <;> rw [hl, hr] at ha
  · have hle : v.answer ≤ 0 := Int32.not_lt.1 fun hgt => by
      have := hL.after v hv hgt
      omega
    rw [← sign_ne_gt_iff, ← ha]
    exact sign_ne_gt_iff.2 hle
  · have hge : 0 ≤ v.answer := Int32.not_lt.1 fun hlt => by
      have := hL.before v hv hlt
      omega
    have hside := sign_ne_lt_iff.2 hge
    rw [← sign_ne_gt_iff, hc.swap, ← ha]
    revert hside
    cases sign v.answer <;> decide

theorem exists_settles {α : Type} {final : Array α} {replies : List (Reply α)} {L : List Verdict}
    (h : List.Forall₂ (Settles final) replies L) {v : Verdict} (hv : v ∈ L) :
    ∃ reply ∈ replies, Settles final reply v := by
  induction h with
  | nil => cases hv
  | cons hsettles _ ih =>
    rcases List.mem_cons.1 hv with rfl | hv
    · exact ⟨_, List.mem_cons_self .., hsettles⟩
    · obtain ⟨reply, hreply, h⟩ := ih hv
      exact ⟨reply, List.mem_cons_of_mem _ hreply, h⟩

/-- The verdicts of a comparer that reads are about the values as they end. -/
theorem Reads.sign_verdict (h : Reads c ask) {t : DecisionTree Unit} {final : Array Int32}
    {L : List Verdict} (hL : List.Forall₂ (Settles final) (t.replies ask buffer memory) L)
    {v : Verdict} (hv : v ∈ L) (hl : v.left < final.size) (hr : v.right < final.size) :
    sign v.answer = sign (c (valueAt final v.left) (valueAt final v.right)) := by
  obtain ⟨reply, hreply, hs⟩ := exists_settles hL hv
  obtain ⟨before, after, ha⟩ := exists_of_mem_replies hreply
  obtain ⟨answer, ha', hsign⟩ := h _ _ _ before (lt_size_congr hs.left hl)
    (lt_size_congr hs.right hr)
  obtain rfl : reply.answer = answer := by
    rw [ha] at ha'
    simpa using ha'
  rw [← hs.answer, hsign, valueAt_congr hs.left, valueAt_congr hs.right]

/-! ### The ascending order -/

theorem sign_ascending (a b : Int32) : sign (ascending a b) = compare a.toInt b.toInt := by
  unfold ascending
  split_ifs with hlt heq
  · rw [Int.compare_eq_lt.2 (Int32.lt_iff_toInt_lt.1 hlt)]
    rfl
  · rw [heq, Int.compare_eq_eq.2 rfl]
    rfl
  · have hgt : b.toInt < a.toInt := by
      rw [Int32.lt_iff_toInt_lt] at hlt
      rw [← Int32.toInt_inj] at heq
      omega
    rw [Int.compare_eq_gt.2 hgt]
    rfl

theorem isPreorder_ascending : IsPreorder ascending := .of_key Int32.toInt sign_ascending

/-- Only the sign of an answer counts, not how large it is. -/
theorem sign_mul_ascending (a b : Int32) : sign (7 * ascending a b) = sign (ascending a b) := by
  unfold ascending
  split_ifs <;> rfl

/-! ### Sorting by an order -/

theorem byPosition_result (sure : ask.Sure) : (byPosition ask buffer memory).result = .ok () :=
  (exists_arranged sure buffer memory).1

theorem byPosition_perm : (byPosition ask buffer memory).buffer.Perm buffer := follow_perm ..

theorem byPosition_ordered (hc : IsPreorder c) (h : Reads c ask) :
    Ordered c (byPosition ask buffer memory).buffer := by
  have hsize : (byPosition ask buffer memory).buffer.size = buffer.size := byPosition_perm.size_eq
  obtain ⟨-, π, L, harr, -, -, hL⟩ := exists_arranged h.sure buffer memory
  refine hc.ordered fun p hp => ?_
  rw [hsize] at hp
  obtain ⟨v, hv, hpair⟩ := harr.adjacent p (by omega) (by omega)
  have hl := harr.left_mem v hv
  have hr := harr.right_mem v hv
  rw [List.mem_range'_1, Nat.zero_add] at hl hr
  exact hc.neighbours harr hv hpair
    (h.sign_verdict hL hv (hl.2.trans_eq hsize.symm) (hr.2.trans_eq hsize.symm))

/-- Sorting by an order of the values makes the same elements stand in this order, whether the
comparer is given values or reads the elements it is told the positions of. -/
theorem sort_orders (hc : IsPreorder c) (buffer : Array Int32) :
    (∀ {σ : Type} (answer : Int32 → Int32 → σ → Int32 × σ) (memory : σ),
      (∀ a b memory, sign (answer a b memory).1 = sign (c a b)) →
      (byValue answer buffer memory).1.Perm buffer ∧
        Ordered c (byValue answer buffer memory).1) ∧
    (∀ {σ ε : Type} (ask : Comparer σ ε Int32) (memory : σ), Reads c ask →
      (byPosition ask buffer memory).result = .ok () ∧
        (byPosition ask buffer memory).buffer.Perm buffer ∧
        Ordered c (byPosition ask buffer memory).buffer) := by
  constructor
  · intro σ answer memory h
    exact ⟨byPosition_perm, byPosition_ordered hc (reads_ofValues h)⟩
  · intro σ ε ask memory h
    exact ⟨byPosition_result h.sure, byPosition_perm, byPosition_ordered hc h⟩

theorem sort_orders_descending :
    let c : Int32 → Int32 → Int32 := fun a b => ascending b a
    let answer : Int32 → Int32 → Nat → Int32 × Nat := fun a b asked => (7 * c a b, asked + 1)
    let ask : Comparer Nat Unit Int32 := ofValues answer
    let buffer : Array Int32 := #[5, 3, 3, -1, 0]
    IsPreorder c ∧ (∀ a b asked, sign (answer a b asked).1 = sign (c a b)) ∧ Reads c ask ∧
      ((byValue answer buffer 0).1.Perm buffer ∧ Ordered c (byValue answer buffer 0).1) ∧
      (byPosition ask buffer 0).result = .ok () ∧ (byPosition ask buffer 0).buffer.Perm buffer ∧
      Ordered c (byPosition ask buffer 0).buffer := by
  intro c answer ask buffer
  have hc : IsPreorder c := isPreorder_ascending.reverse
  have hanswer : ∀ a b asked, sign (answer a b asked).1 = sign (c a b) := fun a b _ =>
    sign_mul_ascending b a
  have hask : Reads c ask := reads_ofValues hanswer
  obtain ⟨hvalue, hposition⟩ := sort_orders hc buffer
  exact ⟨hc, hanswer, hask, hvalue answer 0 hanswer, hposition ask 0 hask⟩

end CallBridge.Sort
