import CallBridge.Json.Parser
import CallBridge.Json.Printer
import Mathlib.Data.List.TakeWhile
import Mathlib.Tactic.SplitIfs

/-!
# Scalars read back

A string read back is the string that was written, whatever its characters (`stringTail_quoted`),
and an integer within bounds is read back as itself (`number_digits`). A reader of a number is
`Local`: what it makes of a text does not change by what stands behind it, if that begins with a
blank, a comma or a closing bracket. So a double that reads back from its text alone reads back from
the middle of a document (`scalar_append_of_float`).
-/

namespace CallBridge.Json

/-- What may stand behind a value: nothing, or a text that begins with a blank, a comma or a closing
bracket. -/
def Closes (rest : List Char) : Prop :=
  ∀ c, rest.head? = some c → isBlank c ∨ c = ',' ∨ c = ']' ∨ c = '}'

theorem closes_nil : Closes [] := fun _ h => by cases h

theorem Closes.cons {c : Char} {rest : List Char} (h : isBlank c ∨ c = ',' ∨ c = ']' ∨ c = '}') :
    Closes (c :: rest) := by
  rintro _ ⟨⟩
  exact h

theorem Closes.head_ne {c : Char} {rest : List Char} (h : Closes (c :: rest)) :
    c.isDigit = false ∧ c ≠ '.' ∧ c ≠ 'e' ∧ c ≠ 'E' ∧ c ≠ '-' ∧ c ≠ '+' := by
  have hc := h c rfl
  simp only [isBlank, Bool.or_eq_true, decide_eq_true_eq] at hc
  rcases hc with (((rfl | rfl) | rfl) | rfl) | rfl | rfl | rfl <;> decide

/-! ### Strings -/

theorem hexUnit_control {n : Nat} (h : n < 32) :
    hexUnit '0' '0' (hexDigit (n / 16)) (hexDigit n) = some n := by
  have hall : ∀ n < 32, hexUnit '0' '0' (hexDigit (n / 16)) (hexDigit n) = some n := by decide
  exact hall n h

/-- An escaped character is read as the character. -/
theorem stringTail_escape (c : Char) (before s : List Char) :
    stringTail before (escape c ++ s) = stringTail (c :: before) s := by
  unfold escape
  split_ifs with hquote hslash hback hfeed hline hreturn htab hcontrol
  · subst hquote; rfl
  · subst hslash; rfl
  · subst hback; rfl
  · subst hfeed; rfl
  · subst hline; rfl
  · subst hreturn; rfl
  · subst htab; rfl
  · -- Four hexadecimal digits, and no half of a pair.
    have hhigh : isHighSurrogate c.toNat = false := by simp [isHighSurrogate]; omega
    have hlow : isLowSurrogate c.toNat = false := by simp [isLowSurrogate]; omega
    have hchar : Char.ofNat c.toNat = c := Char.ofNat_toNat c
    simp [stringTail, hexUnit_control hcontrol, hhigh, hlow, hchar]
  · have hplain : stringTail before (c :: s) =
        if c.toNat < 32 then failAt .controlInString (c :: s) else stringTail (c :: before) s :=
      stringTail.eq_6 before c s hquote (fun _ _ _ _ _ h _ => hslash h) (fun _ _ h _ => hslash h)
        fun h _ => hslash h
    rw [List.cons_append, List.nil_append, hplain, if_neg hcontrol]

theorem stringTail_flatMap (s before rest : List Char) :
    stringTail before (s.flatMap escape ++ '"' :: rest) =
      .ok (String.ofList (before.reverse ++ s), rest) := by
  induction s generalizing before with
  | nil => simp [stringTail]
  | cons c s ih =>
    rw [List.flatMap_cons, List.append_assoc, stringTail_escape, ih]
    simp

/-- A written string is read back, from after its opening quote. -/
theorem stringTail_quoted (s : String) (rest : List Char) :
    stringTail [] (s.toList.flatMap escape ++ '"' :: rest) = .ok (s, rest) := by
  rw [stringTail_flatMap]
  simp

/-! ### Readers that look no further -/

/-- A reader takes off the front of a text, and gives the same if the text goes on behind. -/
def Local {α : Type} (p : List Char → Reading (α × List Char)) : Prop :=
  ∀ s a r, p s = .ok (a, r) →
    (∃ t, s = t ++ r) ∧ ∀ rest, Closes rest → p (s ++ rest) = .ok (a, r ++ rest)

theorem Local.bind {α β : Type} {p : List Char → Reading (α × List Char)}
    {q : α → List Char → Reading (β × List Char)} (hp : Local p) (hq : ∀ a, Local (q a)) :
    Local fun s => p s >>= fun x => q x.1 x.2 := by
  intro s b r h
  dsimp only at h ⊢
  cases hps : p s with
  | error e =>
    rw [hps] at h
    cases h
  | ok x =>
    obtain ⟨a, s'⟩ := x
    rw [hps] at h
    obtain ⟨⟨t, rfl⟩, happend⟩ := hp s a s' hps
    obtain ⟨⟨t', rfl⟩, happend'⟩ := hq a s' b r h
    refine ⟨⟨t ++ t', by rw [List.append_assoc]⟩, fun rest hrest => ?_⟩
    rw [happend rest hrest]
    exact happend' rest hrest

theorem local_of_ok {α : Type} {p : List Char → Reading (α × List Char)} {a : α}
    (h : ∀ s, p s = .ok (a, s)) : Local p := by
  intro s b r hs
  rw [h] at hs
  obtain ⟨rfl, rfl⟩ := Prod.mk.inj (Except.ok.inj hs)
  exact ⟨⟨[], rfl⟩, fun rest _ => h _⟩

theorem local_of_error {α : Type} {p : List Char → Reading (α × List Char)}
    (h : ∀ s, ∃ e, p s = .error e) : Local p := by
  intro s b r hs
  obtain ⟨e, he⟩ := h s
  rw [he] at hs
  cases hs

theorem splitDigits_append {rest : List Char} (hrest : Closes rest) (s : List Char) :
    splitDigits (s ++ rest) = ((splitDigits s).1, (splitDigits s).2 ++ rest) := by
  induction s with
  | nil =>
    cases rest with
    | nil => rfl
    | cons c rest => simp [splitDigits, hrest.head_ne.1]
  | cons c s ih =>
    simp only [splitDigits, Prod.mk.injEq] at ih
    by_cases hc : c.isDigit <;> simp [splitDigits, hc, ih]

theorem local_digits : Local digits := by
  intro s a r h
  cases s with
  | nil => cases h
  | cons c s =>
    rw [digits] at h
    split at h
    · next hc =>
      obtain ⟨rfl, rfl⟩ := Prod.mk.inj (Except.ok.inj h)
      refine ⟨⟨_, (List.takeWhile_append_dropWhile ..).symm⟩, fun rest hrest => ?_⟩
      rw [List.cons_append, digits, if_pos hc, ← List.cons_append, splitDigits_append hrest]
      rfl
    · cases h

theorem wholeDigits_of_ne {c : Char} (hc : c ≠ '0') (s : List Char) :
    wholeDigits (c :: s) = digits (c :: s) := by
  unfold wholeDigits
  split
  · next heq => exact absurd (List.cons.inj heq).1 hc
  · rfl

theorem local_wholeDigits : Local wholeDigits := by
  intro s a r h
  unfold wholeDigits at h
  split at h
  · next s =>
    split at h
    · cases h
    · next hdigit =>
      obtain ⟨rfl, rfl⟩ := Prod.mk.inj (Except.ok.inj h)
      refine ⟨⟨['0'], rfl⟩, fun rest hrest => ?_⟩
      -- A zero stands alone, so the reader looks at the character behind it.
      have hnext : (s ++ rest).head?.any Char.isDigit = false := by
        cases s with
        | cons c s => simpa using hdigit
        | nil =>
          cases rest with
          | nil => rfl
          | cons c rest => simp [hrest.head_ne.1]
      rw [List.cons_append, wholeDigits, hnext]
      rfl
  · next hzero =>
    obtain ⟨hfront, happend⟩ := local_digits s a r h
    refine ⟨hfront, fun rest hrest => ?_⟩
    cases s with
    | nil => cases h
    | cons c s =>
      have hc : c ≠ '0' := fun hc => hzero s (by rw [hc])
      rw [List.cons_append, wholeDigits_of_ne hc]
      exact happend rest hrest

theorem local_fractionDigits : Local fractionDigits := by
  intro s a r h
  unfold fractionDigits at h
  split at h
  · next s =>
    cases hd : digits s with
    | error e =>
      rw [hd] at h
      cases h
    | ok x =>
      rw [hd] at h
      obtain ⟨rfl, rfl⟩ := Prod.mk.inj (Except.ok.inj h)
      obtain ⟨⟨t, rfl⟩, happend⟩ := local_digits s x.1 x.2 hd
      refine ⟨⟨'.' :: t, rfl⟩, fun rest hrest => ?_⟩
      rw [List.cons_append, fractionDigits, happend rest hrest]
      rfl
  · next hpoint =>
    obtain ⟨rfl, rfl⟩ := Prod.mk.inj (Except.ok.inj h)
    refine ⟨⟨[], rfl⟩, fun rest hrest => ?_⟩
    unfold fractionDigits
    split
    · next t heq =>
      cases s with
      | nil =>
        rw [List.nil_append] at heq
        exact absurd rfl (heq ▸ hrest).head_ne.2.1
      | cons c s => exact absurd (by rw [(List.cons.inj heq).1]) (hpoint s)
    · rfl

/-- The sign of an exponent, negative or not, and the rest. -/
def exponentSign : List Char → Bool × List Char
  | '-' :: s => (true, s)
  | '+' :: s => (false, s)
  | s => (false, s)

/-- The digits of an exponent whose sign is read. -/
def exponentDigits (negative : Bool) (s : List Char) : Reading (Option Exponent × List Char) :=
  digits s >>= fun x => .ok (some ⟨negative, x.1⟩, x.2)

theorem exponentSign_suffix (s : List Char) : ∃ t, s = t ++ (exponentSign s).2 := by
  unfold exponentSign
  split
  · exact ⟨['-'], rfl⟩
  · exact ⟨['+'], rfl⟩
  · exact ⟨[], rfl⟩

theorem exponentSign_append {rest : List Char} (hrest : Closes rest) (s : List Char) :
    exponentSign (s ++ rest) = ((exponentSign s).1, (exponentSign s).2 ++ rest) := by
  have hplain : ∀ {c : Char} (s : List Char), c ≠ '-' → c ≠ '+' →
      exponentSign (c :: s) = (false, c :: s) := by
    intro c s hminus hplus
    unfold exponentSign
    split
    · next heq => exact absurd (List.cons.inj heq).1 hminus
    · next heq => exact absurd (List.cons.inj heq).1 hplus
    · rfl
  cases s with
  | nil =>
    cases rest with
    | nil => rfl
    | cons c rest => exact hplain rest hrest.head_ne.2.2.2.2.1 hrest.head_ne.2.2.2.2.2
  | cons c s =>
    by_cases hminus : c = '-'
    · subst hminus
      rfl
    · by_cases hplus : c = '+'
      · subst hplus
        rfl
      · rw [List.cons_append, hplain _ hminus hplus, hplain _ hminus hplus]
        rfl

theorem local_exponentDigits (negative : Bool) : Local (exponentDigits negative) := by
  have hdone : ∀ ds, Local fun s => Except.ok (some (Exponent.mk negative ds), s) :=
    fun _ => local_of_ok fun _ => rfl
  exact local_digits.bind hdone

theorem exponent_of_mark {c : Char} (hc : c = 'e' ∨ c = 'E') (s : List Char) :
    exponent (c :: s) = exponentDigits (exponentSign s).1 (exponentSign s).2 := by
  unfold exponent
  exact if_pos hc

theorem exponent_of_not_mark {s : List Char} (h : ∀ c, s.head? = some c → ¬(c = 'e' ∨ c = 'E')) :
    exponent s = .ok (none, s) := by
  cases s with
  | nil => rfl
  | cons c s =>
    unfold exponent
    exact if_neg (h c rfl)

theorem local_exponent : Local exponent := by
  have hnone : ∀ {s a r}, (∀ c, s.head? = some c → ¬(c = 'e' ∨ c = 'E')) →
      exponent s = .ok (a, r) → a = none ∧ r = s := by
    intro s a r hs h
    rw [exponent_of_not_mark hs] at h
    obtain ⟨rfl, rfl⟩ := Prod.mk.inj (Except.ok.inj h)
    exact ⟨rfl, rfl⟩
  intro s a r h
  cases s with
  | nil =>
    obtain ⟨rfl, rfl⟩ := hnone (by rintro _ ⟨⟩) h
    refine ⟨⟨[], rfl⟩, fun rest hrest => exponent_of_not_mark fun c hc => ?_⟩
    cases rest with
    | nil => cases hc
    | cons c' rest =>
      obtain rfl := Option.some.inj hc
      exact fun hmark => hmark.elim hrest.head_ne.2.2.1 hrest.head_ne.2.2.2.1
  | cons c s =>
    by_cases hc : c = 'e' ∨ c = 'E'
    · rw [exponent_of_mark hc] at h
      obtain ⟨t, ht⟩ := exponentSign_suffix s
      obtain ⟨⟨t', ht'⟩, happend⟩ := local_exponentDigits _ _ _ _ h
      refine ⟨⟨c :: (t ++ t'), ?_⟩, fun rest hrest => ?_⟩
      · rw [List.cons_append, List.append_assoc, ← ht', ← ht]
      · rw [List.cons_append, exponent_of_mark hc, exponentSign_append hrest, happend rest hrest]
    · have hhead : ∀ (s : List Char) d, (c :: s).head? = some d → ¬(d = 'e' ∨ d = 'E') := by
        rintro s _ ⟨⟩
        exact hc
      obtain ⟨rfl, rfl⟩ := hnone (hhead s) h
      exact ⟨⟨[], rfl⟩, fun rest _ => exponent_of_not_mark (hhead (s ++ rest))⟩

theorem local_scaled (negative : Bool) (m : Magnitude) : Local (scaled negative m) := by
  cases hm : m.toBinary64? with
  | some x => exact local_of_ok fun s => by rw [scaled, hm]
  | none => exact local_of_error fun s => ⟨_, by rw [scaled, hm]; rfl⟩

theorem local_ofParts (negative : Bool) (whole : List Char) (fraction : Option (List Char))
    (e : Option Exponent) : Local (ofParts negative whole fraction e) := by
  unfold ofParts
  cases e with
  | some e =>
    dsimp only
    cases exponentValue 0 e.digits with
    | ok n => exact local_scaled negative _
    | error ds =>
      dsimp only
      split_ifs
      · exact local_of_error fun s => ⟨_, rfl⟩
      · exact local_of_ok fun s => rfl
  | none =>
    dsimp only
    cases (if fraction.isSome then none else integer? negative whole) with
    | some j => exact local_of_ok fun s => rfl
    | none => exact local_scaled negative _

theorem local_number (negative : Bool) : Local (number negative) :=
  local_wholeDigits.bind fun whole => local_fractionDigits.bind fun fraction =>
    local_exponent.bind fun e => local_ofParts negative whole fraction e

/-! ### Integers -/

theorem digitsValue_digits (n : Nat) : digitsValue (Decimal.digits n) = n := by
  have h := Nat.ofDigitChars_toDigits (b := 10) (n := n) (by decide) (by decide)
  rwa [Nat.ofDigitChars_eq_foldl] at h

theorem isDigit_of_mem_digits {n : Nat} {c : Char} (h : c ∈ Decimal.digits n) : c.isDigit :=
  Nat.isDigit_of_mem_toDigits (by decide) (by decide) h

/-- Only zero is written with a zero in front. -/
theorem digits_eq_zero_cons {n : Nat} {s : List Char} (h : Decimal.digits n = '0' :: s) :
    n = 0 := by
  induction n using Nat.strongRecOn generalizing s with
  | ind n ih =>
    by_cases hn : n < 10
    · rw [Decimal.digits, Nat.toDigits_of_lt_base hn] at h
      have hdigit : ∀ n < 10, n.digitChar = '0' → n = 0 := by decide
      exact hdigit n hn (List.cons.inj h).1
    · rw [Decimal.digits, Nat.toDigits_of_base_le (by decide) (by omega)] at h
      cases hq : Nat.toDigits 10 (n / 10) with
      | nil => exact absurd hq Nat.toDigits_ne_nil
      | cons c t =>
        rw [hq, List.cons_append] at h
        rw [(List.cons.inj h).1] at hq
        have hzero := ih (n / 10) (by omega) hq
        omega

theorem splitDigits_of_all {s : List Char} (h : ∀ c ∈ s, c.isDigit) : splitDigits s = (s, []) := by
  rw [splitDigits, List.takeWhile_eq_self_iff.2 h, List.dropWhile_eq_nil_iff.2 h]

theorem wholeDigits_digits (n : Nat) :
    wholeDigits (Decimal.digits n) = .ok (Decimal.digits n, []) := by
  have hdigits : ∀ c ∈ Decimal.digits n, c.isDigit := fun c => isDigit_of_mem_digits
  cases h : Decimal.digits n with
  | nil => exact absurd h Nat.toDigits_ne_nil
  | cons c s =>
    by_cases hc : c = '0'
    · subst hc
      obtain rfl := digits_eq_zero_cons h
      obtain ⟨-, rfl⟩ := List.cons.inj h
      rfl
    · rw [h] at hdigits
      rw [wholeDigits_of_ne hc, digits, if_pos (hdigits c (List.mem_cons_self ..)), splitDigits_of_all hdigits]

/-- The digits of an integer within bounds are read as the integer. -/
theorem number_digits {negative : Bool} {n : Nat} {i : Int}
    (hi : (if negative then -(n : Int) else n) = i) (hbounds : isIntegral i)
    (hzero : ¬(negative ∧ n = 0)) :
    number negative (Decimal.digits n) = .ok (.int i, []) := by
  subst hi
  have hinteger : integer? negative (Decimal.digits n) =
      some (.int (if negative then -(n : Int) else n)) := by
    rw [integer?, digitsValue_digits]
    exact if_pos ⟨hbounds, hzero⟩
  rw [number, wholeDigits_digits]
  change ofParts negative (Decimal.digits n) none none [] = _
  simp only [ofParts, Option.isSome_none, Bool.false_eq_true, if_false, hinteger]

/-! ### Scalars -/

/-- A text that is read as a value which holds no other, whatever stands behind it. -/
def SpellsScalar (s : List Char) (j : Json) : Prop :=
  ∀ rest, Closes rest → scalar (s ++ rest) = .ok (j, rest)

theorem scalar_of_isDigit {c : Char} (hc : c.isDigit) (s : List Char) :
    scalar (c :: s) = number false (c :: s) := by
  have hne : ∀ {d : Char}, d.isDigit = false → c ≠ d := by
    rintro d hd rfl
    rw [hd] at hc
    cases hc
  have hplain : scalar (c :: s) =
      if c.isDigit then number false (c :: s) else failAt .noValue (c :: s) :=
    scalar.eq_7 c s (hne (by decide)) (hne (by decide)) (hne (by decide)) (hne (by decide))
      (hne (by decide))
  rw [hplain, if_pos hc]

theorem spellsScalar_null : SpellsScalar ['n', 'u', 'l', 'l'] .null := fun _ _ => rfl

theorem spellsScalar_bool (b : Bool) : SpellsScalar (scalarChars (.bool b)) (.bool b) := by
  cases b <;> exact fun _ _ => rfl

theorem spellsScalar_str (s : String) : SpellsScalar (quoted s) (.str s) := by
  intro rest _
  rw [quoted, List.cons_append, List.append_assoc, scalar]
  change (stringTail [] _ >>= fun x => _) = _
  rw [List.cons_append, List.nil_append, stringTail_quoted]
  rfl

theorem isIntegral_of_lt {n : Nat} (h : n < Nat.pow 2 64) : isIntegral n := by
  simp only [isIntegral, Bool.and_eq_true, decide_eq_true_eq]
  omega

theorem spellsScalar_int {n : Int} (h : isIntegral n) :
    SpellsScalar (Decimal.signedDigits n) (.int n) := by
  intro rest hrest
  unfold Decimal.signedDigits
  split
  · next hn =>
    have hvalue : (if true then -(n.natAbs : Int) else n.natAbs) = n := by
      rw [if_pos rfl]
      omega
    have hread := @number_digits true n.natAbs n hvalue h (by omega)
    exact (local_number true _ _ _ hread).2 rest hrest
  · next hn =>
    have hvalue : (if false then -(n.natAbs : Int) else n.natAbs) = n := by
      rw [if_neg (by decide)]
      omega
    have hread := @number_digits false n.natAbs n hvalue h (by simp)
    have hnumber := (local_number false _ _ _ hread).2 rest hrest
    cases hdigits : Decimal.digits n.natAbs with
    | nil => exact absurd hdigits Nat.toDigits_ne_nil
    | cons c s =>
      have hc : c.isDigit := isDigit_of_mem_digits (hdigits ▸ List.mem_cons_self ..)
      rw [List.cons_append, scalar_of_isDigit hc, ← List.cons_append, ← hdigits, hnumber,
        List.nil_append]

/-- What is read as a double is so whatever may stand behind the text. -/
theorem scalar_append_of_float {s r : List Char} {x : Binary64}
    (h : scalar s = .ok (.float x, r)) :
    (∃ t, s = t ++ r) ∧ ∀ rest, Closes rest → scalar (s ++ rest) = .ok (.float x, r ++ rest) := by
  unfold scalar at h
  split at h
  · cases h
  · next s => cases hw : word ['u', 'l', 'l'] s <;> rw [hw] at h <;> cases h
  · next s => cases hw : word ['r', 'u', 'e'] s <;> rw [hw] at h <;> cases h
  · next s => cases hw : word ['a', 'l', 's', 'e'] s <;> rw [hw] at h <;> cases h
  · next s => cases hw : stringTail [] s <;> rw [hw] at h <;> cases h
  · obtain ⟨⟨t, ht⟩, happend⟩ := local_number true _ _ _ h
    exact ⟨⟨'-' :: t, by rw [ht, List.cons_append]⟩, happend⟩
  · next c s _ _ _ _ _ =>
    split at h
    · next hc =>
      obtain ⟨hfront, happend⟩ := local_number false _ _ _ h
      refine ⟨hfront, fun rest hrest => ?_⟩
      rw [List.cons_append, scalar_of_isDigit hc]
      exact happend rest hrest
    · cases h

end CallBridge.Json
