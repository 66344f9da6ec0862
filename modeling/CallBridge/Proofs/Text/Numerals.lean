import CallBridge.Text.Blank
import CallBridge.Text.Number
import Mathlib.Data.List.Forall2
import Mathlib.Data.Nat.Digits.Defs
import Mathlib.Tactic.Ring

/-!
# Numerals

`IsNumeral radix s vs`: the text `s` is a plus sign or none, and then one digit or more of the
radix, letters in either case, of the values `vs`. A number is read from a numeral of it that is
below the limit, and from no other text (`readNumber_eq_ok_iff`); a numeral that is not below the
limit is refused for that (`readNumber_of_le`). The digits a number is written with are a numeral of
it (`isNumeral_toDigits`), whatever the case of their letters (`isNumeral_of_toLower`).
-/

namespace CallBridge.Text

/-- A digit of a radix and its value; a letter in either case. -/
def IsDigit (radix : Nat) (c : Char) (v : Nat) : Prop :=
  v < radix ∧ (c = v.digitChar ∨ c = v.digitChar.toUpper)

/-- A number in a radix: a plus sign or none, and digits of these values, the highest first. -/
def IsNumeral (radix : Nat) (s : List Char) (vs : List Nat) : Prop :=
  vs ≠ [] ∧ ∃ ds, (s = ds ∨ s = '+' :: ds) ∧ List.Forall₂ (IsDigit radix) ds vs

section
variable {radix limit n m v : Nat} {c : Char} {s ds : List Char} {vs : List Nat}

/-! ### Digits -/

theorem toNat_digitChar (h : v < 16) :
    (v < 10 → v.digitChar.toNat = v + 48 ∧ v.digitChar.toUpper.toNat = v + 48) ∧
    (10 ≤ v → v.digitChar.toNat = v + 87 ∧ v.digitChar.toUpper.toNat = v + 55) := by
  have hall : ∀ v < 16,
      (v < 10 → v.digitChar.toNat = v + 48 ∧ v.digitChar.toUpper.toNat = v + 48) ∧
      (10 ≤ v → v.digitChar.toNat = v + 87 ∧ v.digitChar.toUpper.toNat = v + 55) := by decide
  exact hall v h

theorem digitValue?_eq_some_iff (hradix : radix ≤ 16) :
    digitValue? radix c = some v ↔ IsDigit radix c v := by
  unfold digitValue? IsDigit
  simp only [Option.filter_eq_some_iff, decide_eq_true_eq, and_comm (b := v < radix)]
  refine and_congr_right fun hv => ?_
  obtain ⟨hdigit, hletter⟩ := toNat_digitChar (Nat.lt_of_lt_of_le hv hradix)
  rw [← Char.toNat_inj, ← Char.toNat_inj]
  rcases Nat.lt_or_ge v 10 with hlow | hhigh
  · obtain ⟨hlower, hupper⟩ := hdigit hlow
    rw [hlower, hupper]
    split_ifs <;> simp <;> omega
  · obtain ⟨hlower, hupper⟩ := hletter hhigh
    rw [hlower, hupper]
    split_ifs <;> simp <;> omega

theorem not_isDigit_plus (hradix : radix ≤ 16) : ¬IsDigit radix '+' v := by
  rw [← digitValue?_eq_some_iff hradix]
  exact fun h => absurd h (by simp [digitValue?])

theorem IsDigit.not_isBlank (hradix : radix ≤ 16) (h : IsDigit radix c v) : isBlank c = false := by
  obtain ⟨hv, hc⟩ := h
  have hdigit := toNat_digitChar (Nat.lt_of_lt_of_le hv hradix)
  have hrange : 48 ≤ c.toNat ∧ c.toNat ≤ 102 := by
    rcases hc with rfl | rfl <;> omega
  simp only [isBlank, Bool.or_eq_false_iff, Bool.and_eq_false_iff, decide_eq_false_iff_not]
  omega

theorem IsNumeral.eq_plus_or_isDigit (h : IsNumeral radix s vs) :
    ∀ c ∈ s, c = '+' ∨ ∃ v, IsDigit radix c v := by
  obtain ⟨-, ds, hs, hds⟩ := h
  have hboth := hds.imp fun c v (hv : IsDigit radix c v) => And.intro (Exists.intro v hv) hv
  have hdigits : ∀ c ∈ ds, ∃ v, IsDigit radix c v := ((List.forall₂_and_left ..).1 hboth).1
  rcases hs with rfl | rfl
  · exact fun c hc => .inr (hdigits c hc)
  · exact List.forall_mem_cons.2 ⟨.inl rfl, fun c hc => .inr (hdigits c hc)⟩

theorem IsNumeral.not_isBlank (hradix : radix ≤ 16) (h : IsNumeral radix s vs) :
    ∀ c ∈ s, isBlank c = false := by
  intro c hc
  rcases h.eq_plus_or_isDigit c hc with rfl | ⟨v, hv⟩
  · rfl
  · exact hv.not_isBlank hradix

/-- One more digit in front. -/
theorem ofDigits_front (radix n v : Nat) (vs : List Nat) :
    n * radix ^ (v :: vs).length + Nat.ofDigits radix (v :: vs).reverse =
      (radix * n + v) * radix ^ vs.length + Nat.ofDigits radix vs.reverse := by
  rw [Nat.ofDigits_reverse_cons, List.length_cons]
  ring

/-- Digits after a number that is below the limit are read as long as the number stays below it. -/
theorem readDigits_eq_ok_iff (hradix : radix ≤ 16) (hn : n < limit) :
    readDigits radix limit n s = .ok m ↔ ∃ vs, List.Forall₂ (IsDigit radix) s vs ∧
      n * radix ^ vs.length + Nat.ofDigits radix vs.reverse = m ∧ m < limit := by
  induction s generalizing n with
  | nil =>
    simp only [readDigits, Except.ok.injEq, List.forall₂_nil_left_iff]
    constructor
    · rintro rfl
      exact ⟨[], rfl, by simp, hn⟩
    · rintro ⟨vs, rfl, rfl, -⟩
      simp
  | cons c s ih =>
    rw [readDigits]
    cases hc : digitValue? radix c with
    | none =>
      simp only [reduceCtorEq, false_iff]
      rintro ⟨vs, hvs, -⟩
      obtain ⟨v, vs, hv, -, rfl⟩ := List.forall₂_cons_left_iff.1 hvs
      rw [(digitValue?_eq_some_iff hradix).2 hv] at hc
      cases hc
    | some d =>
      dsimp only
      have hd := (digitValue?_eq_some_iff hradix).1 hc
      have hunique : ∀ {v}, IsDigit radix c v → v = d := fun hv =>
        Option.some.inj (((digitValue?_eq_some_iff hradix).2 hv).symm.trans hc)
      split_ifs with hroom
      · rw [ih hroom]
        constructor
        · rintro ⟨vs, hvs, hm, hlt⟩
          exact ⟨d :: vs, .cons hd hvs, (ofDigits_front ..).trans hm, hlt⟩
        · rintro ⟨vs, hvs, hm, hlt⟩
          obtain ⟨v, tail, hv, htail, rfl⟩ := List.forall₂_cons_left_iff.1 hvs
          obtain rfl := hunique hv
          exact ⟨tail, htail, (ofDigits_front ..).symm.trans hm, hlt⟩
      · simp only [false_iff]
        rintro ⟨vs, hvs, rfl, hlt⟩
        obtain ⟨v, vs, hv, -, rfl⟩ := List.forall₂_cons_left_iff.1 hvs
        obtain rfl := hunique hv
        rw [ofDigits_front] at hlt
        have hradix' : 0 < radix := Nat.lt_of_le_of_lt (Nat.zero_le _) hd.1
        have hle := Nat.le_mul_of_pos_right (radix * n + v) (Nat.pow_pos (n := vs.length) hradix')
        omega

/-- Digits that carry a number to the limit are refused for that. -/
theorem readDigits_of_le (hradix : radix ≤ 16) (hn : n < limit)
    (hds : List.Forall₂ (IsDigit radix) ds vs)
    (hle : limit ≤ n * radix ^ vs.length + Nat.ofDigits radix vs.reverse) :
    readDigits radix limit n ds = .error .tooLarge := by
  induction hds generalizing n with
  | nil =>
    rw [List.length_nil, Nat.pow_zero, Nat.mul_one, List.reverse_nil, Nat.ofDigits_nil] at hle
    omega
  | cons hv _ ih =>
    rw [readDigits, (digitValue?_eq_some_iff hradix).2 hv]
    dsimp only
    split_ifs with hroom
    · exact ih hroom (by rwa [ofDigits_front] at hle)
    · rfl

/-! ### Numbers -/

theorem readNumber_of_ne (hc : c ≠ '+') (s : List Char) :
    readNumber radix limit (c :: s) = readDigits radix limit 0 (c :: s) := by
  unfold readNumber
  split
  · next heq => cases heq
  · next heq => exact absurd (List.cons.inj heq).1 hc
  · next heq => exact absurd (List.cons.inj heq).1 hc
  · rfl

theorem readNumber_plus (hs : s ≠ []) :
    readNumber radix limit ('+' :: s) = readDigits radix limit 0 s := by
  cases s with
  | nil => exact absurd rfl hs
  | cons c s => rfl

/-- What is read of a numeral are its digits. -/
theorem IsNumeral.readNumber_eq (hradix : radix ≤ 16) (h : IsNumeral radix s vs) (limit : Nat) :
    ∃ ds, List.Forall₂ (IsDigit radix) ds vs ∧
      readNumber radix limit s = readDigits radix limit 0 ds := by
  obtain ⟨hvs, ds, hs, hds⟩ := h
  obtain ⟨v, vs, rfl⟩ := List.exists_cons_of_ne_nil hvs
  obtain ⟨c, ds, hc, -, rfl⟩ := List.forall₂_cons_right_iff.1 hds
  refine ⟨_, hds, ?_⟩
  rcases hs with rfl | rfl
  · exact readNumber_of_ne (fun hplus => not_isDigit_plus hradix (hplus ▸ hc)) _
  · exact readNumber_plus (List.cons_ne_nil c ds)

/-- A number below the limit is read from its numerals, and from nothing else. -/
theorem readNumber_eq_ok_iff (hradix : radix ≤ 16) (hlimit : 0 < limit) :
    readNumber radix limit s = .ok n ↔
      ∃ vs, IsNumeral radix s vs ∧ Nat.ofDigits radix vs.reverse = n ∧ n < limit := by
  have hdigits : ∀ {ds}, readDigits radix limit 0 ds = .ok n ↔
      ∃ vs, List.Forall₂ (IsDigit radix) ds vs ∧ Nat.ofDigits radix vs.reverse = n ∧ n < limit := by
    intro ds
    rw [readDigits_eq_ok_iff hradix hlimit]
    simp only [Nat.zero_mul, Nat.zero_add]
  have hnumeral : ∀ {c ds}, (s = c :: ds ∨ s = '+' :: c :: ds) →
      readDigits radix limit 0 (c :: ds) = .ok n →
      ∃ vs, IsNumeral radix s vs ∧ Nat.ofDigits radix vs.reverse = n ∧ n < limit := by
    intro c ds hs h
    obtain ⟨vs, hvs, hn⟩ := hdigits.1 h
    refine ⟨vs, ⟨?_, c :: ds, hs, hvs⟩, hn⟩
    rintro rfl
    cases hvs
  constructor
  · intro h
    cases s with
    | nil => cases h
    | cons c s =>
      by_cases hc : c = '+'
      · subst hc
        cases s with
        | nil => cases h
        | cons d s =>
          rw [readNumber_plus (List.cons_ne_nil d s)] at h
          exact hnumeral (.inr rfl) h
      · exact hnumeral (.inl rfl) ((readNumber_of_ne hc s).symm.trans h)
  · rintro ⟨vs, hvs, hn⟩
    obtain ⟨ds, hds, hread⟩ := hvs.readNumber_eq hradix limit
    rw [hread]
    exact hdigits.2 ⟨vs, hds, hn⟩

/-- A numeral of a number that is not below the limit. -/
theorem readNumber_of_le (hradix : radix ≤ 16) (hlimit : 0 < limit) (h : IsNumeral radix s vs)
    (hle : limit ≤ Nat.ofDigits radix vs.reverse) :
    readNumber radix limit s = .error .tooLarge := by
  obtain ⟨ds, hds, hread⟩ := h.readNumber_eq hradix limit
  rw [hread]
  exact readDigits_of_le hradix hlimit hds (by rwa [Nat.zero_mul, Nat.zero_add])

/-! ### Written numbers -/

/-- The digits a number is written with, and their values. -/
theorem forall₂_toDigits (hradix : 1 < radix) (n : Nat) : ∃ vs,
    List.Forall₂ (fun c v => v < radix ∧ c = v.digitChar) (Nat.toDigits radix n) vs ∧
      Nat.ofDigits radix vs.reverse = n := by
  induction n using Nat.strongRecOn with
  | ind n ih =>
    rcases Nat.lt_or_ge n radix with hlt | hle
    · rw [Nat.toDigits_of_lt_base hlt]
      exact ⟨[n], .cons ⟨hlt, rfl⟩ .nil, by simp⟩
    · obtain ⟨vs, hvs, hvalue⟩ := ih (n / radix) (Nat.div_lt_self (by omega) hradix)
      have hlast : n % radix < radix := Nat.mod_lt _ (by omega)
      rw [Nat.toDigits_of_base_le hradix hle]
      refine ⟨vs ++ [n % radix], List.rel_append hvs (.cons ⟨hlast, rfl⟩ .nil), ?_⟩
      rw [List.reverse_append, List.reverse_singleton, List.singleton_append, Nat.ofDigits_cons,
        hvalue, Nat.mod_add_div]

theorem toNat_toLower (c : Char) :
    c.toLower.toNat = if 65 ≤ c.toNat ∧ c.toNat ≤ 90 then c.toNat + 32 else c.toNat := by
  have hupper : c.val ≥ 'A'.val ∧ c.val ≤ 'Z'.val ↔ 65 ≤ c.toNat ∧ c.toNat ≤ 90 := by
    rw [ge_iff_le, UInt32.le_iff_toNat_le, UInt32.le_iff_toNat_le]
    rfl
  change (dite (c.val ≥ 'A'.val ∧ c.val ≤ 'Z'.val) _ _ : Char).toNat = _
  split_ifs with h h' h'
  · change (c.val + 32).toNat = c.val.toNat + 32
    rw [UInt32.toNat_add]
    have : c.val.toNat ≤ 90 := h'.2
    exact Nat.mod_eq_of_lt (by simp; omega)
  · exact absurd (hupper.1 h) h'
  · exact absurd (hupper.2 h') h
  · rfl

theorem eq_or_eq_toUpper (hv : v < 16) (h : c.toLower = v.digitChar) :
    c = v.digitChar ∨ c = v.digitChar.toUpper := by
  have hlower := congrArg Char.toNat h
  have hdigit := toNat_digitChar hv
  rw [toNat_toLower] at hlower
  rw [← Char.toNat_inj, ← Char.toNat_inj]
  split_ifs at hlower <;> omega

/-- Digits that stand for those a number is written with. -/
theorem exists_values {f : Char → Char} (hradix : 1 < radix)
    (hf : ∀ c v, v < radix → f c = v.digitChar → IsDigit radix c v)
    (h : ds.map f = Nat.toDigits radix n) :
    ∃ vs, IsNumeral radix ds vs ∧ Nat.ofDigits radix vs.reverse = n := by
  obtain ⟨vs, hvs, hvalue⟩ := forall₂_toDigits hradix n
  rw [← h, List.forall₂_map_left_iff] at hvs
  refine ⟨vs, ⟨?_, ds, .inl rfl, hvs.imp fun c v hcv => hf c v hcv.1 hcv.2⟩, hvalue⟩
  rintro rfl
  obtain rfl := List.forall₂_nil_right_iff.1 hvs
  exact Nat.toDigits_ne_nil h.symm

theorem isNumeral_toDigits (hradix : 1 < radix) (n : Nat) :
    ∃ vs, IsNumeral radix (Nat.toDigits radix n) vs ∧ Nat.ofDigits radix vs.reverse = n :=
  exists_values hradix (fun _ _ hv hc => ⟨hv, .inl hc⟩) (List.map_id _)

/-- The case of letters makes no difference. -/
theorem isNumeral_of_toLower (hradix : 1 < radix) (hradix' : radix ≤ 16)
    (h : ds.map Char.toLower = Nat.toDigits radix n) :
    ∃ vs, IsNumeral radix ds vs ∧ Nat.ofDigits radix vs.reverse = n :=
  exists_values hradix
    (fun _ _ hv hc => ⟨hv, eq_or_eq_toUpper (Nat.lt_of_lt_of_le hv hradix') hc⟩) h

end
end CallBridge.Text
