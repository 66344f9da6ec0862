import CallBridge.Text.Number
import Mathlib.Data.List.Lex
import Mathlib.Data.String.Basic

/-!
# Padded numbers

A text of padded numbers with a mark behind each, how it is read, and its order. Digits of equal
length compare as their numbers do; so texts of one layout whose numbers fit their widths compare
as the lists of their numbers.
-/

namespace CallBridge.Text

section Digits
variable {width n : Nat}

theorem toList_padded (width n : Nat) : (padded width n).toList =
    List.replicate (width - (Nat.toDigits 10 n).length) '0' ++ Nat.toDigits 10 n :=
  String.toList_ofList

theorem isDigit_of_mem_padded : ∀ c ∈ (padded width n).toList, c.isDigit = true := by
  intro c hc
  rw [toList_padded, List.mem_append] at hc
  rcases hc with hc | hc
  · rw [List.eq_of_mem_replicate hc]
    rfl
  · exact Nat.isDigit_of_mem_toDigits (by decide) (by decide) hc

theorem ofDigitChars_padded (width n : Nat) :
    Nat.ofDigitChars 10 (padded width n).toList 0 = n := by
  rw [toList_padded, Nat.ofDigitChars_append, Nat.ofDigitChars_replicate_zero, Nat.mul_zero,
    Nat.ofDigitChars_toDigits (by decide) (by decide)]

theorem le_length_padded (width n : Nat) : width ≤ (padded width n).toList.length := by
  rw [toList_padded, List.length_append, List.length_replicate]
  omega

theorem length_padded (hw : 0 < width) (h : n < 10 ^ width) :
    (padded width n).toList.length = width := by
  have := (Nat.length_toDigits_le_iff (b := 10) (by decide) hw).2 h
  rw [toList_padded, List.length_append, List.length_replicate]
  omega

theorem ofDigitChars_cons_zero (c : Char) (s : List Char) : Nat.ofDigitChars 10 (c :: s) 0 =
    10 ^ s.length * (c.toNat - '0'.toNat) + Nat.ofDigitChars 10 s 0 := by
  rw [Nat.ofDigitChars_cons, Nat.ofDigitChars_eq_ofDigitChars_zero, Nat.mul_zero, Nat.zero_add]

theorem ofDigitChars_lt {s : List Char} (h : ∀ c ∈ s, c.isDigit = true) :
    Nat.ofDigitChars 10 s 0 < 10 ^ s.length := by
  induction s with
  | nil => decide
  | cons c s ih =>
    rw [List.forall_mem_cons] at h
    have hc := Char.isDigit_iff_toNat.1 h.1
    have hs := ih h.2
    have hle : 10 ^ s.length * (c.toNat - '0'.toNat) ≤ 10 ^ s.length * 9 :=
      Nat.mul_le_mul_left _ (Nat.sub_le_sub_right hc.2 _)
    rw [ofDigitChars_cons_zero, List.length_cons, pow_succ]
    omega

/-- A number with a leading figure: the figure decides first. -/
theorem mul_add_lt_mul_add_iff {k a b x y : Nat} (hx : x < k) (hy : y < k) :
    k * a + x < k * b + y ↔ a < b ∨ a = b ∧ x < y := by
  rcases Nat.lt_trichotomy a b with h | rfl | h
  · have := Nat.mul_le_mul_left k (Nat.succ_le_of_lt h)
    rw [Nat.mul_succ] at this
    simp only [h, true_or, iff_true]
    omega
  · simp
  · have := Nat.mul_le_mul_left k (Nat.succ_le_of_lt h)
    rw [Nat.mul_succ] at this
    have : ¬ a < b ∧ a ≠ b := by omega
    simp only [this, false_or, false_and, iff_false]
    omega

theorem lt_iff_ofDigitChars_lt {s t : List Char} (hs : ∀ c ∈ s, c.isDigit = true)
    (ht : ∀ c ∈ t, c.isDigit = true) (h : s.length = t.length) :
    s < t ↔ Nat.ofDigitChars 10 s 0 < Nat.ofDigitChars 10 t 0 := by
  induction s generalizing t with
  | nil =>
    rw [List.length_nil, eq_comm, List.length_eq_zero_iff] at h
    simp [h]
  | cons c s ih =>
    obtain _ | ⟨d, t⟩ := t
    · simp at h
    rw [List.forall_mem_cons] at hs ht
    have hc := Char.isDigit_iff_toNat.1 hs.1
    have hd := Char.isDigit_iff_toNat.1 ht.1
    have hlen : s.length = t.length := by simpa using h
    have hlt : c < d ↔ c.toNat - '0'.toNat < d.toNat - '0'.toNat := by
      rw [Char.lt_def, UInt32.lt_iff_toNat_lt]
      change c.toNat < d.toNat ↔ _
      omega
    have heq : c = d ↔ c.toNat - '0'.toNat = d.toNat - '0'.toNat := by
      rw [← Char.toNat_inj]
      omega
    rw [List.cons_lt_cons_iff, ih hs.2 ht.2 hlen, ofDigitChars_cons_zero, ofDigitChars_cons_zero,
      hlen, mul_add_lt_mul_add_iff (hlen ▸ ofDigitChars_lt hs.2) (ofDigitChars_lt ht.2), hlt, heq]

theorem padded_lt_padded_iff {n' : Nat} (hw : 0 < width) (h : n < 10 ^ width)
    (h' : n' < 10 ^ width) :
    (padded width n).toList < (padded width n').toList ↔ n < n' := by
  rw [lt_iff_ofDigitChars_lt isDigit_of_mem_padded isDigit_of_mem_padded
    ((length_padded hw h).trans (length_padded hw h').symm), ofDigitChars_padded,
    ofDigitChars_padded]

theorem padded_inj {n' : Nat} : (padded width n).toList = (padded width n').toList ↔ n = n' := by
  constructor
  · intro h
    rw [← ofDigitChars_padded width n, h, ofDigitChars_padded]
  · rintro rfl
    rfl

end Digits

theorem append_lt_append_iff {α : Type} [LinearOrder α] {a b s t : List α}
    (h : a.length = b.length) : a ++ s < b ++ t ↔ a < b ∨ a = b ∧ s < t := by
  induction a generalizing b with
  | nil =>
    rw [List.length_nil, eq_comm, List.length_eq_zero_iff] at h
    simp [h]
  | cons x a ih =>
    obtain _ | ⟨y, b⟩ := b
    · simp at h
    rw [List.cons_append, List.cons_append, List.cons_lt_cons_iff, List.cons_lt_cons_iff,
      ih (by simpa using h), List.cons.injEq]
    tauto

/-- Numbers in text, each of some width or more and with a mark behind it. -/
def marked : List (Nat × Char) → List Nat → List Char
  | (width, mark) :: layout, n :: ns => (padded width n).toList ++ mark :: marked layout ns
  | _, _ => []

/-- The numbers of a text with these widths and marks. -/
def unmarked? : List (Nat × Char) → List Char → Option (List Nat)
  | [], s => if s = [] then some [] else none
  | (width, mark) :: layout, s =>
    let digits := s.takeWhile Char.isDigit
    match s.dropWhile Char.isDigit with
    | [] => none
    | c :: rest =>
      if c = mark ∧ width ≤ digits.length then
        (Nat.ofDigitChars 10 digits 0 :: ·) <$> unmarked? layout rest
      else none

variable {layout : List (Nat × Char)} {ns ms : List Nat}

theorem unmarked?_marked (hlayout : ∀ p ∈ layout, p.2.isDigit = false)
    (hlen : ns.length = layout.length) : unmarked? layout (marked layout ns) = some ns := by
  induction layout generalizing ns with
  | nil =>
    rw [List.length_nil, List.length_eq_zero_iff] at hlen
    rw [hlen]
    rfl
  | cons p layout ih =>
    obtain _ | ⟨n, ns⟩ := ns
    · simp at hlen
    rw [List.forall_mem_cons] at hlayout
    have hmark : ¬ p.2.isDigit = true := by simp [hlayout.1]
    rw [marked, unmarked?, List.takeWhile_append_of_pos isDigit_of_mem_padded,
      List.dropWhile_append_of_pos isDigit_of_mem_padded, List.takeWhile_cons_of_neg hmark,
      List.dropWhile_cons_of_neg hmark, List.append_nil]
    dsimp only
    rw [if_pos ⟨rfl, le_length_padded _ _⟩, ofDigitChars_padded, ih hlayout.2 (by simpa using hlen)]
    rfl

/-- The numbers fit the widths of their places. -/
def Fits (layout : List (Nat × Char)) (ns : List Nat) : Prop :=
  List.Forall₂ (fun p n => 0 < p.1 ∧ n < 10 ^ p.1) layout ns

theorem marked_lt_marked_iff (hn : Fits layout ns) (hm : Fits layout ms) :
    marked layout ns < marked layout ms ↔ ns < ms := by
  induction layout generalizing ns ms with
  | nil =>
    cases hn
    cases hm
    simp [marked]
  | cons p layout ih =>
    obtain _ | ⟨⟨hw, hn⟩, hns⟩ := hn
    obtain _ | ⟨⟨-, hm⟩, hms⟩ := hm
    have hlen := (length_padded hw hn).trans (length_padded hw hm).symm
    rw [marked, marked, append_lt_append_iff hlen, padded_lt_padded_iff hw hn hm, padded_inj,
      List.cons_lt_cons_iff, List.cons_lt_cons_iff, ih hns hms]
    simp

end CallBridge.Text
