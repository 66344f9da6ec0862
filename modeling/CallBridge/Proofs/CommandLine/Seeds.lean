import CallBridge.CommandLine.Arguments
import CallBridge.Proofs.Text.Items
import CallBridge.Proofs.Text.Numerals

/-!
# Seeds in text

The digits of a seed are what is left of a text without the blanks around it, the mark of
hexadecimal digits and the underscores (`SeedDigits`). A seed is read exactly from a numeral of it
among them, so it is read from its decimal and from its hexadecimal form, however they are dressed
up; what is no number below `2 ^ 64` is refused (`seed_read_back`).
-/

namespace CallBridge.CommandLine
open Text

/-- A word without the underscores in it. -/
def bare (word : List Char) : List Char := word.filter (· ≠ '_')

def IsHexMark (c : Char) : Prop := c = 'x' ∨ c = 'X'

/-- The radix and the digits that a text tells a seed by. -/
inductive SeedDigits : List Char → Nat → List Char → Prop
  | hexadecimal {s rest : List Char} {mark : Char} (hs : Trimmed s ('0' :: mark :: rest))
      (hmark : IsHexMark mark) : SeedDigits s 16 (bare rest)
  | decimal {s word : List Char} (hs : Trimmed s word)
      (hmark : ∀ mark rest, word = '0' :: mark :: rest → ¬IsHexMark mark) :
      SeedDigits s 10 (bare word)

section
variable {s word rest : List Char} {mark : Char}

theorem hexDigits?_of_mark (hmark : IsHexMark mark) :
    hexDigits? ('0' :: mark :: rest) = some rest := by
  rcases hmark with rfl | rfl <;> rfl

theorem hexDigits?_eq_none
    (h : ∀ mark rest, word = '0' :: mark :: rest → ¬IsHexMark mark) : hexDigits? word = none := by
  unfold hexDigits?
  split
  · exact absurd (.inl rfl) (h _ _ rfl)
  · exact absurd (.inr rfl) (h _ _ rfl)
  · rfl

/-- A text has one radix and one string of digits. -/
theorem exists_seedDigits (s : List Char) : ∃ radix ds, SeedDigits s radix ds := by
  have hs := trimChars_eq_iff.1 (Eq.refl (trimChars s))
  by_cases h : ∃ mark rest, trimChars s = '0' :: mark :: rest ∧ IsHexMark mark
  · obtain ⟨mark, rest, hword, hmark⟩ := h
    exact ⟨16, _, .hexadecimal (hword ▸ hs) hmark⟩
  · refine ⟨10, _, .decimal hs fun mark rest hword hmark => h ⟨mark, rest, hword, hmark⟩⟩

theorem readSeed_eq {s : String} {radix : Nat} {ds : List Char} (h : SeedDigits s.toList radix ds) :
    radix ≤ 16 ∧ readSeed s = (readNumber radix wordLimit ds).map UInt64.ofNat := by
  cases h with
  | hexadecimal hs hmark =>
    refine ⟨Nat.le_refl 16, ?_⟩
    simp only [readSeed, trimChars_eq_iff.2 hs, hexDigits?_of_mark hmark]
    rfl
  | decimal hs hmark =>
    refine ⟨by decide, ?_⟩
    simp only [readSeed, trimChars_eq_iff.2 hs, hexDigits?_eq_none hmark]
    rfl

theorem map_ofNat_eq_ok_iff {r : Except NumberError Nat} {seed : UInt64}
    (hr : ∀ n, r = .ok n → n < wordLimit) :
    r.map UInt64.ofNat = .ok seed ↔ r = .ok seed.toNat := by
  cases r with
  | error e => simp [Except.map]
  | ok n =>
    have hn : n < 2 ^ 64 := hr n rfl
    simp only [Except.map, Except.ok.injEq]
    constructor
    · rintro rfl
      exact (UInt64.toNat_ofNat_of_lt' hn).symm
    · rintro rfl
      exact UInt64.ofNat_toNat

/-- A seed is read from the numerals of it and from nothing else. -/
theorem readSeed_eq_ok_iff {s : String} {radix : Nat} {ds : List Char} {seed : UInt64}
    (h : SeedDigits s.toList radix ds) : readSeed s = .ok seed ↔
      ∃ vs, IsNumeral radix ds vs ∧ Nat.ofDigits radix vs.reverse = seed.toNat := by
  obtain ⟨hradix, hread⟩ := readSeed_eq h
  have hlimit : 0 < wordLimit := by decide
  rw [hread, map_ofNat_eq_ok_iff, readNumber_eq_ok_iff hradix hlimit]
  · constructor
    · rintro ⟨vs, hvs, hvalue, -⟩
      exact ⟨vs, hvs, hvalue⟩
    · rintro ⟨vs, hvs, hvalue⟩
      exact ⟨vs, hvs, hvalue, seed.toNat_lt⟩
  · intro n hn
    obtain ⟨vs, -, -, hlt⟩ := (readNumber_eq_ok_iff hradix hlimit).1 hn
    exact hlt

/-! ### Written seeds -/

theorem not_isBlank_of_bare (h : ∀ c ∈ bare word, isBlank c = false) :
    ∀ c ∈ word, isBlank c = false := by
  intro c hc
  by_cases hunder : c = '_'
  · subst hunder
    rfl
  · exact h c (List.mem_filter.2 ⟨hc, by simpa using hunder⟩)

theorem isHexMark_of_toLower (h : mark.toLower = 'x') : IsHexMark mark := by
  have hlower := congrArg Char.toNat h
  rw [toNat_toLower] at hlower
  rw [IsHexMark, ← Char.toNat_inj, ← Char.toNat_inj]
  change _ = 120 at hlower
  change mark.toNat = 120 ∨ mark.toNat = 88
  split_ifs at hlower <;> omega

theorem not_isBlank_of_isHexMark (h : IsHexMark mark) : isBlank mark = false := by
  rcases h with rfl | rfl <;> rfl

/-- The decimal form of a seed, or its hexadecimal form with a mark and letters of either case, with
underscores among the digits. -/
def Dressed (seed : UInt64) (word : List Char) : Prop :=
  bare word = (toString seed.toNat).toList ∨
    ∃ mark rest, word = '0' :: mark :: rest ∧
      ('0' :: mark :: bare rest).map Char.toLower = (hex seed.toNat).toList

/-- A decimal number holds no mark. -/
theorem notMem_of_isHexMark {vs : List Nat} (h : IsHexMark mark)
    (hword : IsNumeral 10 (bare word) vs) : mark ∉ word := by
  intro hmem
  have hmark : mark ≠ '_' ∧ mark ≠ '+' ∧ digitValue? 10 mark = none := by
    rcases h with rfl | rfl <;> decide
  have hbare : mark ∈ bare word := List.mem_filter.2 ⟨hmem, by simpa using hmark.1⟩
  rcases hword.eq_plus_or_isDigit mark hbare with hplus | ⟨v, hv⟩
  · exact hmark.2.1 hplus
  · rw [(digitValue?_eq_some_iff (by decide)).2 hv] at hmark
    cases hmark.2.2

/-- The digits of a word that a seed is dressed up in are a numeral of the seed. -/
theorem Dressed.exists_digits {seed : UInt64} (h : Dressed seed word) : ∃ radix ds vs,
    (∀ c ∈ word, isBlank c = false) ∧ (Trimmed s word → SeedDigits s radix ds) ∧
      IsNumeral radix ds vs ∧ Nat.ofDigits radix vs.reverse = seed.toNat := by
  rcases h with hword | ⟨mark, rest, rfl, hword⟩
  · rw [Nat.toString_eq_ofList_toDigits, String.toList_ofList] at hword
    obtain ⟨vs, hvs, hvalue⟩ := isNumeral_toDigits (by decide : 1 < 10) seed.toNat
    rw [← hword] at hvs
    have hplain := not_isBlank_of_bare (hvs.not_isBlank (by decide))
    refine ⟨10, bare word, vs, hplain, fun hs => .decimal hs ?_, hvs, hvalue⟩
    rintro mark rest rfl hmark
    exact notMem_of_isHexMark hmark hvs (List.mem_cons_of_mem _ (List.mem_cons_self ..))
  · have htext : (hex seed.toNat).toList = '0' :: 'x' :: Nat.toDigits 16 seed.toNat := by simp [hex]
    rw [htext] at hword
    obtain ⟨hmark, hdigits⟩ := List.cons.inj (List.cons.inj hword).2
    have hmark := isHexMark_of_toLower hmark
    obtain ⟨vs, hvs, hvalue⟩ := isNumeral_of_toLower (by decide : 1 < 16) (Nat.le_refl 16) hdigits
    have hplain := not_isBlank_of_bare (hvs.not_isBlank (by decide))
    refine ⟨16, bare rest, vs, ?_, fun hs => .hexadecimal hs hmark, hvs, hvalue⟩
    have hmarked : ∀ c ∈ mark :: rest, isBlank c = false :=
      List.forall_mem_cons.2 ⟨not_isBlank_of_isHexMark hmark, hplain⟩
    exact List.forall_mem_cons.2 ⟨rfl, hmarked⟩

end

/-- A seed is read back however its forms are dressed up. A text is read only as the number that its
digits stand for, and a number of `2 ^ 64` or more, no digits or any other character is refused. -/
theorem seed_read_back :
    (∀ (seed : UInt64) (s : String) (before word after : List Char),
      s.toList = before ++ (word ++ after) → Blanks before → Blanks after → Dressed seed word →
        readSeed s = .ok seed) ∧
    (∀ s : String, ∃ radix ds, SeedDigits s.toList radix ds) ∧
    ∀ (s : String) (radix : Nat) (ds : List Char), SeedDigits s.toList radix ds →
      (∀ seed, readSeed s = .ok seed ↔
        ∃ vs, IsNumeral radix ds vs ∧ Nat.ofDigits radix vs.reverse = seed.toNat) ∧
      (∀ vs, IsNumeral radix ds vs → 2 ^ 64 ≤ Nat.ofDigits radix vs.reverse →
        readSeed s = .error .tooLarge) ∧
      (ds = [] → readSeed s = .error .empty) ∧
      ((∀ vs, ¬IsNumeral radix ds vs) → ∃ e, readSeed s = .error e) := by
  refine ⟨fun seed s before word after hs hbefore hafter hword => ?_,
    fun s => exists_seedDigits s.toList, fun s radix ds hds => ?_⟩
  · obtain ⟨radix, ds, vs, hplain, hdigits, hvs, hvalue⟩ := hword.exists_digits
    have htrim := hs ▸ trimmed_of_plain hbefore hafter hplain
    exact (readSeed_eq_ok_iff (hdigits htrim)).2 ⟨vs, hvs, hvalue⟩
  · obtain ⟨hradix, hread⟩ := readSeed_eq hds
    refine ⟨fun seed => readSeed_eq_ok_iff hds, fun vs hvs hle => ?_, ?_, fun hnone => ?_⟩
    · have hlarge : wordLimit ≤ Nat.ofDigits radix vs.reverse := hle
      rw [hread, readNumber_of_le hradix (by decide) hvs hlarge]
      rfl
    · rintro rfl
      rw [hread]
      rfl
    · cases hresult : readSeed s with
      | error e => exact ⟨e, rfl⟩
      | ok seed =>
        obtain ⟨vs, hvs, -⟩ := (readSeed_eq_ok_iff hds).1 hresult
        exact absurd hvs (hnone vs)

theorem seed_read_back_dressed :
    Dressed 0xDEADBEEF0123ABCD "0X_dEaD_BeEf__0123_aBcD_".toList ∧
    readSeed "\t 0X_dEaD_BeEf__0123_aBcD_\u3000" = .ok 0xDEADBEEF0123ABCD ∧
    SeedDigits "0x1_0000_0000_0000_0000 ".toList 16 "10000000000000000".toList ∧
    readSeed "0x1_0000_0000_0000_0000 " = .error .tooLarge := by
  have hword : Dressed 0xDEADBEEF0123ABCD "0X_dEaD_BeEf__0123_aBcD_".toList :=
    .inr ⟨'X', "_dEaD_BeEf__0123_aBcD_".toList, by decide +kernel, by decide +kernel⟩
  have hbefore : Blanks ['\t', ' '] :=
    List.forall_mem_cons.2 ⟨by decide, List.forall_mem_singleton.2 (by decide)⟩
  have hafter : Blanks ['\u3000'] := List.forall_mem_singleton.2 (by decide)
  have htrim : Trimmed "0x1_0000_0000_0000_0000 ".toList "0x1_0000_0000_0000_0000".toList :=
    trimChars_eq_iff.1 (by decide +kernel)
  have hdigits : SeedDigits "0x1_0000_0000_0000_0000 ".toList 16 "10000000000000000".toList :=
    .hexadecimal htrim (.inl rfl)
  have hnumeral : IsNumeral 16 "10000000000000000".toList (1 :: List.replicate 16 0) := by
    refine ⟨by decide, _, .inl rfl, ?_⟩
    unfold IsDigit
    decide +kernel
  exact ⟨hword, seed_read_back.1 _ _ _ _ _ (by decide +kernel) hbefore hafter hword, hdigits,
    (seed_read_back.2.2 _ _ _ hdigits).2.1 _ hnumeral (by decide +kernel)⟩

end CallBridge.CommandLine
