import CallBridge.Proofs.Decimal.Shortest
import CallBridge.Proofs.Json.ReadBack

/-!
# Every finite double can be read

A reader multiplies a word by a power of ten, each rounded to a double, and refuses what comes out
infinite. What it takes of the digits of a double is not above the double, so up to the second largest
one nothing overflows (`isSome_toBinary64?`), and the two largest ones are read as well: the text of a
finite double is read as a double, though not always as the same one (`exists_scalar_floatChars`).
-/

namespace CallBridge.Json
open Binary64

/-! ### Words -/

section
variable {n m : Nat} {c : Char} {cs ds rest : List Char}

theorem toNat_of_isDigit (h : c.isDigit) : 48 ≤ c.toNat ∧ c.toNat ≤ 57 := by
  simp only [Char.isDigit, ge_iff_le, Bool.and_eq_true, decide_eq_true_eq] at h
  exact ⟨h.1, h.2⟩

theorem digitValue_lt (h : c.isDigit) : digitValue c < 10 := by
  have := toNat_of_isDigit h
  simp only [digitValue]
  omega

theorem digitValue_pos (h : c.isDigit) (hc : c ≠ '0') : 0 < digitValue c := by
  have hne : c.toNat ≠ '0'.toNat := fun heq => hc (Char.toNat_inj.1 heq)
  have hzero : '0'.toNat = 48 := rfl
  have := toNat_of_isDigit h
  simp only [digitValue]
  omega

/-- The value of digits after those of a number. -/
def continued (n : Nat) (ds : List Char) : Nat := ds.foldl (fun n c => 10 * n + digitValue c) n

theorem continued_append (n : Nat) (ds cs : List Char) :
    continued n (ds ++ cs) = continued (continued n ds) cs := List.foldl_append ..

theorem mul_pow_le_continued (n : Nat) (ds : List Char) : n * 10 ^ ds.length ≤ continued n ds := by
  induction ds generalizing n with
  | nil => simp [continued]
  | cons c ds ih =>
    calc n * 10 ^ (ds.length + 1) = 10 * n * 10 ^ ds.length := by ring
      _ ≤ (10 * n + digitValue c) * 10 ^ ds.length := Nat.mul_le_mul_right _ (Nat.le_add_right ..)
      _ ≤ continued n (c :: ds) := ih _

theorem le_continued (n : Nat) (ds : List Char) : n ≤ continued n ds :=
  Nat.le_trans (Nat.le_mul_of_pos_right n (Nat.pow_pos (by decide))) (mul_pow_le_continued n ds)

theorem continued_lt (hds : ∀ c ∈ ds, c.isDigit) :
    continued n ds < (n + 1) * 10 ^ ds.length := by
  induction ds generalizing n with
  | nil => simp [continued]
  | cons c ds ih =>
    have hc := digitValue_lt (hds c (List.mem_cons_self ..))
    calc continued n (c :: ds)
        < (10 * n + digitValue c + 1) * 10 ^ ds.length := ih fun c hc => hds c (List.mem_cons_of_mem _ hc)
      _ ≤ (10 * n + 10) * 10 ^ ds.length := Nat.mul_le_mul_right _ (by omega)
      _ = (n + 1) * 10 ^ (ds.length + 1) := by ring

/-- Digits that a word has room for are all taken. -/
theorem gather_of_lt (h : continued n ds < Nat.pow 2 64) : gather n ds = (continued n ds, []) := by
  induction ds generalizing n with
  | nil => rfl
  | cons c ds ih =>
    have hroom : 10 * n + digitValue c < Nat.pow 2 64 := Nat.lt_of_le_of_lt (le_continued _ ds) h
    rw [gather, if_pos hroom]
    exact ih h

/-- Of other digits as many are taken as a word has room for. -/
theorem gather_eq (hn : n < Nat.pow 2 64) (ds : List Char) : ∃ taken ignored, ds = taken ++ ignored ∧
    gather n ds = (continued n taken, ignored) ∧ continued n taken < Nat.pow 2 64 := by
  induction ds generalizing n with
  | nil => exact ⟨[], [], rfl, rfl, hn⟩
  | cons c ds ih =>
    by_cases hroom : 10 * n + digitValue c < Nat.pow 2 64
    · obtain ⟨taken, ignored, rfl, hgather, hlt⟩ := ih hroom
      refine ⟨c :: taken, ignored, rfl, ?_, hlt⟩
      rw [gather, if_pos hroom, hgather]
      rfl
    · exact ⟨[], c :: ds, rfl, by rw [gather, if_neg hroom]; rfl, hn⟩

/-- If a word has room for the digits before the point, some digits after it count. -/
theorem ofDigits_eq {whole : List Char} (h : continued 0 whole < Nat.pow 2 64)
    (fraction : List Char) : ∃ taken ignored, fraction = taken ++ ignored ∧
      Magnitude.ofDigits whole fraction = ⟨continued 0 (whole ++ taken), -(taken.length : Int)⟩ ∧
      continued 0 (whole ++ taken) < Nat.pow 2 64 := by
  obtain ⟨taken, ignored, rfl, hgather, hlt⟩ := gather_eq h fraction
  refine ⟨taken, ignored, rfl, ?_, by rwa [continued_append]⟩
  simp [Magnitude.ofDigits, gather_of_lt h, hgather, continued_append]

end

/-! ### Magnitudes -/

/-- The largest word that, times a power of ten, is not above the second largest double. -/
def largestWord (e : Nat) : Nat := min (Nat.pow 2 64 - 1) (Decimal.secondLargest / 10 ^ e)

/-- Three roundings do not carry a number from the second largest double beyond the largest one. -/
theorem isFinitePositive_largestWord : ∀ e < maxPower + 1, (tenTo e).IsFinitePositive ∧
    (Binary64.ofNat (largestWord e)).IsFinitePositive ∧
    ((Binary64.ofNat (largestWord e)).mul (tenTo e)).IsFinitePositive := by
  decide +kernel

theorem isSome_toBinary64? {m : Magnitude} (hword : m.word < Nat.pow 2 64)
    (h : 0 < m.exponent → m.word * 10 ^ m.exponent.toNat ≤ Decimal.secondLargest) :
    ∃ x, m.toBinary64? = some x := by
  unfold Magnitude.toBinary64?
  dsimp only
  split_ifs with hzero hhigh hsign hfinite hlow hlower
  any_goals exact ⟨_, rfl⟩
  · -- a word that is not zero is at least one, and a higher power of ten is above every double
    have hpower : 10 ^ (maxPower + 1) ≤ m.word * 10 ^ m.exponent.toNat :=
      Nat.le_trans (Nat.pow_le_pow_right (by decide) (by omega))
        (Nat.le_mul_of_pos_left _ (Nat.pos_of_ne_zero hzero))
    have hbound := hpower.trans (h (by omega))
    exact absurd hbound (by decide +kernel)
  · refine absurd ?_ hfinite
    obtain ⟨hten, hlargest, hproduct⟩ := isFinitePositive_largestWord m.exponent.toNat (by omega)
    have hle : m.word ≤ largestWord m.exponent.toNat := by
      refine Nat.le_min.2 ⟨by omega, (Nat.le_div_iff_mul_le (Nat.pow_pos (by decide))).2 ?_⟩
      rcases Int.lt_or_eq_of_le hsign with hpos | heq
      · exact h hpos
      · rw [← heq]
        exact Nat.le_trans (by simpa using hword.le) (by decide +kernel)
    have hbits := ofNat_mono hle
    exact (isFinitePositive_mul_of_le (Nat.lt_of_le_of_lt hbits hlargest) hlargest hten hbits
      hproduct).isFinite

/-! ### Parts of numbers -/

section
variable {c : Char} {ds rest : List Char}

theorem splitDigits_front (hds : ∀ c ∈ ds, c.isDigit)
    (hrest : ∀ c, rest.head? = some c → c.isDigit = false) : splitDigits (ds ++ rest) = (ds, rest) := by
  have hstop : rest.takeWhile Char.isDigit = [] ∧ rest.dropWhile Char.isDigit = rest := by
    cases rest with
    | nil => exact ⟨rfl, rfl⟩
    | cons c rest => simp [hrest c rfl]
  rw [splitDigits, List.takeWhile_append_of_pos hds, List.dropWhile_append_of_pos hds, hstop.1,
    hstop.2, List.append_nil]

theorem digits_front (hne : ds ≠ []) (hds : ∀ c ∈ ds, c.isDigit)
    (hrest : ∀ c, rest.head? = some c → c.isDigit = false) : digits (ds ++ rest) = .ok (ds, rest) := by
  cases ds with
  | nil => exact absurd rfl hne
  | cons c ds =>
    rw [List.cons_append, digits, if_pos (hds c (List.mem_cons_self ..)), ← List.cons_append,
      splitDigits_front hds hrest]

theorem digits_of_all (hne : ds ≠ []) (hds : ∀ c ∈ ds, c.isDigit) : digits ds = .ok (ds, []) := by
  have hread : digits (ds ++ []) = .ok (ds, []) := digits_front hne hds (by rintro _ ⟨⟩)
  rwa [List.append_nil] at hread

/-- Digits that may stand before a point: a zero stands alone. -/
structure IsWhole (ds : List Char) : Prop where
  ne_nil : ds ≠ []
  digits : ∀ c ∈ ds, c.isDigit
  alone : ∀ s, ds = '0' :: s → s = []

theorem isWhole_zero : IsWhole ['0'] := ⟨by simp, by simp, fun _ h => (List.cons.inj h).2.symm⟩

theorem IsWhole.read (h : IsWhole ds) (hrest : ∀ c, rest.head? = some c → c.isDigit = false) :
    wholeDigits (ds ++ rest) = .ok (ds, rest) := by
  cases ds with
  | nil => exact absurd rfl h.ne_nil
  | cons c ds =>
    by_cases hc : c = '0'
    · subst hc
      obtain rfl := h.alone ds rfl
      have hnext : rest.head?.any Char.isDigit = false := by
        cases rest with
        | nil => rfl
        | cons c rest => simpa using hrest c rfl
      rw [List.cons_append, List.nil_append, wholeDigits, hnext]
      rfl
    · rw [List.cons_append, wholeDigits_of_ne hc]
      exact digits_front h.ne_nil h.digits hrest

/-- An exponent is worked out, or it is beyond the bound. -/
theorem exponentValue_cases (n : Nat) (ds : List Char) :
    exponentValue n ds = .ok (continued n ds) ∨
      maxExponent < continued n ds ∧ ∃ cs, exponentValue n ds = .error cs := by
  induction ds generalizing n with
  | nil => exact .inl rfl
  | cons c ds ih =>
    by_cases hbeyond : maxExponent < 10 * n + digitValue c
    · exact .inr ⟨Nat.lt_of_lt_of_le hbeyond (le_continued _ ds), ds, if_pos hbeyond⟩
    · rw [exponentValue, if_neg hbeyond]
      exact ih _

theorem exists_scaled {m : Magnitude} (negative : Bool) (rest : List Char)
    (h : ∃ x, m.toBinary64? = some x) : ∃ y, scaled negative m rest = .ok (.float y, rest) := by
  obtain ⟨x, hx⟩ := h
  exact ⟨_, by rw [scaled, hx]; rfl⟩

/-- Digits with a point, and no more of them before it than a word has room for, are read. -/
theorem number_inPlace (negative : Bool) {whole fraction : List Char} (hwhole : IsWhole whole)
    (hroom : continued 0 whole < Nat.pow 2 64) (hne : fraction ≠ [])
    (hfraction : ∀ c ∈ fraction, c.isDigit) :
    ∃ y, number negative (whole ++ '.' :: fraction) = .ok (.float y, []) := by
  have hdigits := digits_of_all hne hfraction
  obtain ⟨taken, ignored, -, heq, hword⟩ := ofDigits_eq hroom fraction
  obtain ⟨y, hy⟩ := exists_scaled negative [] (isSome_toBinary64? (m := .ofDigits whole fraction)
    (by rwa [heq]) (by rw [heq]; intro hpos; dsimp only at hpos; omega))
  have hread : number negative (whole ++ '.' :: fraction) =
      ofParts negative whole (some fraction) none [] := by
    rw [number, hwhole.read (by rintro _ ⟨⟩; decide)]
    simp only [ok_bind, fractionDigits, hdigits]
    rfl
  exact ⟨y, hread.trans hy⟩

end

/-- The mark of an exponent with its sign and digits is read. -/
theorem exponent_written (first : Int) :
    exponent ('e' :: (if first < 0 then '-' else '+') :: Decimal.digits first.natAbs) =
      .ok (some ⟨first < 0, Decimal.digits first.natAbs⟩, []) := by
  have hdigits : digits (Decimal.digits first.natAbs) = .ok (Decimal.digits first.natAbs, []) :=
    digits_of_all Nat.toDigits_ne_nil fun c => isDigit_of_mem_digits
  rw [exponent_of_mark (.inl rfl)]
  by_cases hneg : first < 0
  · simp only [hneg, if_true, exponentSign, exponentDigits, hdigits, decide_true]
    rfl
  · simp only [hneg, if_false, exponentSign, exponentDigits, hdigits, decide_false]
    rfl

section
variable {c : Char} {ds : List Char} {first : Int}

/-- One digit, the others after a point, and an exponent. -/
theorem number_withExponent_eq (first : Int) (negative : Bool) (hds : ∀ d ∈ c :: ds, d.isDigit) :
    ∃ fraction : Option (List Char), fraction.getD [] = ds ∧
      number negative (Decimal.withExponent (c :: ds) first) = ofParts negative [c] fraction
        (some ⟨first < 0, Decimal.digits first.natAbs⟩) [] := by
  have hwhole : IsWhole [c] :=
    ⟨by simp, fun d hd => hds d (List.mem_cons.2 (.inl (List.mem_singleton.1 hd))),
      fun s hs => (List.cons.inj hs).2.symm⟩
  have hmark : ∀ d s, ('e' :: s : List Char).head? = some d → d.isDigit = false := by
    rintro _ s ⟨⟩
    decide
  cases ds with
  | nil =>
    refine ⟨none, rfl, ?_⟩
    rw [Decimal.withExponent, number, hwhole.read (hmark · _)]
    simp only [ok_bind, fractionDigits]
    change exponent _ >>= _ = _
    rw [exponent_written]
    rfl
  | cons d ds =>
    refine ⟨some (d :: ds), rfl, ?_⟩
    have hpoint : ∀ e s, ('.' :: s : List Char).head? = some e → e.isDigit = false := by
      rintro _ s ⟨⟩
      decide
    have hdigits : ∀ s, digits (d :: ds ++ 'e' :: s) = .ok (d :: ds, 'e' :: s) := fun s =>
      digits_front (List.cons_ne_nil d ds) (fun e he => hds e (List.mem_cons_of_mem _ he)) (hmark · s)
    have hshape : Decimal.withExponent (c :: d :: ds) first =
        [c] ++ '.' :: ((d :: ds) ++ 'e' :: (if first < 0 then '-' else '+') ::
          Decimal.digits first.natAbs) := by
      simp [Decimal.withExponent]
    rw [hshape, number, hwhole.read (hpoint · _)]
    simp only [ok_bind, fractionDigits, hdigits]
    change exponent _ >>= _ = _
    rw [exponent_written]
    rfl

/-- The digits that count stand for no more than all of them. -/
theorem counted_le {taken : List Char} (ignored : List Char) {bound : Nat}
    (h : (continued 0 (taken ++ ignored) : ℚ) * 10 ^ (first - ignored.length) ≤ bound)
    (hfirst : 0 ≤ first) : continued 0 taken * 10 ^ first.toNat ≤ bound := by
  have hcounted : (continued 0 taken * 10 ^ ignored.length : ℚ) ≤ continued 0 (taken ++ ignored) := by
    rw [continued_append]
    exact_mod_cast mul_pow_le_continued (continued 0 taken) ignored
  have hpower : (10 : ℚ) ^ first.toNat = 10 ^ ignored.length * 10 ^ (first - ignored.length) := by
    rw [← zpow_natCast, ← zpow_natCast, ← zpow_add₀ (by norm_num), Int.toNat_of_nonneg hfirst,
      add_sub_cancel]
  have hle : (continued 0 taken : ℚ) * 10 ^ first.toNat ≤ bound := by
    rw [hpower, ← mul_assoc]
    exact (mul_le_mul_of_nonneg_right hcounted (by positivity)).trans h
  exact_mod_cast hle

/-- Digits with an exponent are read if they stand for no more than the second largest double. -/
theorem number_withExponent (negative : Bool) (hds : ∀ d ∈ c :: ds, d.isDigit)
    (hfirst : first ≤ maxExponent)
    (hvalue : (continued 0 (c :: ds) : ℚ) * 10 ^ (first - ds.length) ≤ Decimal.secondLargest) :
    ∃ y, number negative (Decimal.withExponent (c :: ds) first) = .ok (.float y, []) := by
  obtain ⟨fraction, rfl, hread⟩ := number_withExponent_eq first negative hds
  have hroom : continued 0 [c] < Nat.pow 2 64 := by
    have hc := digitValue_lt (hds c (List.mem_cons_self ..))
    simp only [continued, List.foldl_cons, List.foldl_nil, Nat.pow_eq]
    omega
  obtain ⟨taken, ignored, hsplit, heq, hword⟩ := ofDigits_eq hroom (fraction.getD [])
  have hn : continued 0 (Decimal.digits first.natAbs) = first.natAbs := digitsValue_digits _
  rcases exponentValue_cases 0 (Decimal.digits first.natAbs) with hok | ⟨hbeyond, cs, herror⟩
  · have hshift : (if decide (first < 0) then -(first.natAbs : Int) else first.natAbs) = first := by
      by_cases hneg : first < 0
      · rw [decide_eq_true hneg, if_pos rfl]
        omega
      · rw [decide_eq_false hneg, if_neg (by decide)]
        omega
    have hcounted : 0 < -(taken.length : Int) + first → continued 0 ([c] ++ taken) *
        10 ^ (-(taken.length : Int) + first).toNat ≤ Decimal.secondLargest := by
      intro hpos
      have hplace : -(taken.length : Int) + first - ignored.length =
          first - (fraction.getD []).length := by
        rw [hsplit, List.length_append]
        push_cast
        ring
      refine counted_le ignored ?_ hpos.le
      rw [hplace, List.append_assoc, ← hsplit]
      exact hvalue
    obtain ⟨y, hy⟩ := exists_scaled negative [] (isSome_toBinary64?
      (m := ⟨continued 0 ([c] ++ taken), -(taken.length : Int) + first⟩) hword hcounted)
    refine ⟨y, hread.trans ?_⟩
    simp only [ofParts, heq, hok, hn, hshift]
    exact hy
  · -- only an exponent below zero is beyond the bound, and nothing is left of the digits then
    have hneg : first < 0 := by omega
    refine ⟨if negative then (zero false).neg else zero false, hread.trans ?_⟩
    simp only [ofParts, herror, hneg, decide_true, not_true_eq_false, and_false, if_false]
    rfl

end

/-! ### Written doubles -/

/-- The digits of a number that is not zero: the first one is not a zero. -/
theorem digits_eq_cons {n : Nat} (h : 0 < n) : ∃ c ds, Decimal.digits n = c :: ds ∧ c ≠ '0' := by
  cases hdigits : Decimal.digits n with
  | nil => exact absurd hdigits Nat.toDigits_ne_nil
  | cons c ds =>
    refine ⟨c, ds, rfl, ?_⟩
    rintro rfl
    exact absurd (digits_eq_zero_cons hdigits) h.ne'

theorem trim_pos {d : Decimal.Digits} (h : 0 < d.digits) : 0 < d.trim.digits := by
  have htaken := List.takeWhile_prefix (· = '0') (l := (Nat.toDigits 10 d.digits).reverse)
  have hle := htaken.length_le
  rw [List.length_reverse] at hle
  have hzeros : d.zeros < (Nat.toDigits 10 d.digits).length := by
    refine Nat.lt_of_le_of_ne hle fun heq => ?_
    obtain ⟨c, ds, hdigits, hc⟩ := digits_eq_cons h
    have hall := List.takeWhile_eq_self_iff.1 (htaken.eq_of_length (by rw [List.length_reverse]; exact heq))
    have hmem : c ∈ Decimal.digits d.digits := hdigits ▸ List.mem_cons_self ..
    exact hc (by simpa using hall c (List.mem_reverse.2 hmem))
  rw [d.trim_eq h]
  refine Nat.div_pos (Nat.not_lt.1 fun hlt => ?_) (Nat.pow_pos (by decide))
  rcases Nat.eq_zero_or_pos d.zeros with hzero | hpos
  · rw [hzero] at hlt
    omega
  · exact absurd ((Nat.length_toDigits_le_iff (by decide) hpos).2 hlt) (Nat.not_le.2 hzeros)

section
variable {c : Char} {ds : List Char} {first : Int}

theorem number_below_one (negative : Bool) (hds : ∀ d ∈ ds, d.isDigit) (hne : ds ≠ []) (n : Nat) :
    ∃ y, number negative ('0' :: '.' :: (List.replicate n '0' ++ ds)) = .ok (.float y, []) := by
  refine number_inPlace negative isWhole_zero (by decide) (by simp [hne]) fun d hd => ?_
  rcases List.mem_append.1 hd with hd | hd
  · rw [(List.mem_replicate.1 hd).2]
    rfl
  · exact hds d hd

theorem number_above_one (negative : Bool) (hds : ∀ d ∈ c :: ds, d.isDigit) (hc : c ≠ '0')
    (hfirst : 0 ≤ first) (hhigh : first ≤ 15) :
    ∃ y, number negative (Decimal.inPlace (c :: ds) first) = .ok (.float y, []) := by
  obtain ⟨k, rfl⟩ := Int.eq_ofNat_of_zero_le hfirst
  have hpadded : ∀ n, ∀ d ∈ c :: ds ++ List.replicate n '0', d.isDigit := by
    intro n d hd
    rcases List.mem_append.1 hd with hd | hd
    · exact hds d hd
    · rw [(List.mem_replicate.1 hd).2]
      rfl
  rw [Decimal.inPlace, if_neg (by omega)]
  dsimp only
  set padded := c :: ds ++ List.replicate ((k : Int).toNat + 1 - (c :: ds).length) '0' with hp
  have hwhole : IsWhole (padded.take ((k : Int).toNat + 1)) := by
    refine ⟨by simp [hp], fun d hd => hpadded _ d (List.mem_of_mem_take hd), fun s hs => ?_⟩
    rw [hp, List.cons_append, List.take_succ_cons] at hs
    exact absurd (List.cons.inj hs).1 hc
  have hroom : continued 0 (padded.take ((k : Int).toNat + 1)) < Nat.pow 2 64 := by
    have hlength : (padded.take ((k : Int).toNat + 1)).length ≤ 16 := by
      rw [List.length_take]
      omega
    calc continued 0 (padded.take ((k : Int).toNat + 1))
        < (0 + 1) * 10 ^ (padded.take ((k : Int).toNat + 1)).length := continued_lt hwhole.digits
      _ ≤ (0 + 1) * 10 ^ 16 := Nat.mul_le_mul_left _ (Nat.pow_le_pow_right (by decide) hlength)
      _ < Nat.pow 2 64 := by decide
  refine number_inPlace negative hwhole hroom ?_ ?_
  · split_ifs with hshort
    · simp
    · rw [Ne, List.drop_eq_nil_iff, hp, List.length_append]
      omega
  · intro d hd
    split_ifs at hd with hshort
    · rw [List.mem_singleton.1 hd]
      rfl
    · exact hpadded _ d (List.mem_of_mem_drop hd)

end

/-- What stands for no more than the second largest double is read, however it is laid out. -/
theorem number_laidOut (negative : Bool) {d : Decimal.Digits} (hpos : 0 < d.digits)
    (hvalue : d.value ≤ Decimal.secondLargest) :
    let ds := Decimal.digits d.digits
    let first := d.exponent + (ds.length : Int) - 1
    ∃ y, number negative (if numbers.lowest ≤ first ∧ first ≤ numbers.highest then
      Decimal.inPlace ds first else Decimal.withExponent ds first) = .ok (.float y, []) := by
  intro ds first
  have hds : ∀ c ∈ ds, c.isDigit := fun c => isDigit_of_mem_digits
  obtain ⟨c, rest, hcons, hc⟩ := digits_eq_cons hpos
  have hn : continued 0 (c :: rest) = d.digits := by
    rw [← hcons]
    exact digitsValue_digits _
  have hplace : d.exponent = first - rest.length := by
    simp only [first, ds, hcons, List.length_cons]
    push_cast
    ring
  rw [Decimal.Digits.value, hplace, ← hn] at hvalue
  have hdigits : ∀ d ∈ c :: rest, d.isDigit := by
    rw [← hcons]
    exact hds
  change ∃ y, number negative (if numbers.lowest ≤ first ∧ first ≤ numbers.highest then
    Decimal.inPlace ds first else Decimal.withExponent ds first) = .ok (.float y, [])
  rw [show ds = c :: rest from hcons]
  split_ifs with hrange
  · by_cases hneg : first < 0
    · rw [Decimal.inPlace, if_pos hneg]
      exact number_below_one negative hdigits (List.cons_ne_nil c rest) _
    · exact number_above_one negative hdigits hc (not_lt.1 hneg) hrange.2
  · refine number_withExponent negative hdigits (not_lt.1 fun hbeyond => ?_) hvalue
    -- the first digit alone would stand for too much
    have hone : 1 ≤ digitValue c := digitValue_pos (hdigits c (List.mem_cons_self ..)) hc
    have hlow : (1 * 10 ^ rest.length : ℚ) ≤ continued 0 (c :: rest) := by
      have hle := (Nat.mul_le_mul_right (10 ^ rest.length) hone).trans
        (mul_pow_le_continued (digitValue c) rest)
      have hcontinued : continued 0 (c :: rest) = continued (digitValue c) rest := by
        simp [continued]
      rw [hcontinued]
      exact_mod_cast hle
    have hfirst : (10 : ℚ) ^ first ≤ Decimal.secondLargest := by
      refine le_trans ?_ hvalue
      calc (10 : ℚ) ^ first = 1 * 10 ^ rest.length * 10 ^ (first - rest.length) := by
            rw [one_mul, ← zpow_natCast, ← zpow_add₀ (by norm_num), add_sub_cancel]
        _ ≤ _ := mul_le_mul_of_nonneg_right hlow (by positivity)
    have hpower : (10 : ℚ) ^ (309 : Nat) ≤ 10 ^ first := by
      rw [← zpow_natCast]
      refine zpow_le_zpow_right₀ (by norm_num) ?_
      have hmax : (maxExponent : Int) = 2147483647 := rfl
      push_cast
      omega
    have hbound : 10 ^ 309 ≤ Decimal.secondLargest := by exact_mod_cast hpower.trans hfirst
    exact absurd hbound (by decide +kernel)

theorem starts_of_number {negative : Bool} {s rest : List Char} {j : Json}
    (h : number negative s = .ok (j, rest)) : ∃ c t, s = c :: t ∧ c.isDigit := by
  cases s with
  | nil => cases h
  | cons c t =>
    refine ⟨c, t, rfl, ?_⟩
    by_contra hc
    have hne : c ≠ '0' := by
      rintro rfl
      exact hc rfl
    rw [number, wholeDigits_of_ne hne, digits, if_neg hc] at h
    cases h

theorem exists_scalar_of_number {s : List Char}
    (h : ∀ negative, ∃ y, number negative s = .ok (.float y, [])) (negative : Bool) :
    ∃ y, scalar (if negative then '-' :: s else s) = .ok (.float y, []) := by
  obtain ⟨y, hy⟩ := h negative
  refine ⟨y, ?_⟩
  cases negative with
  | true => exact hy
  | false =>
    obtain ⟨c, t, rfl, hc⟩ := starts_of_number hy
    exact (scalar_of_isDigit hc t).trans hy

/-- What is not above the second largest double is read from its text. -/
theorem exists_scalar_render {units : Nat} (h : units ≤ Decimal.thirdLargestUnits)
    (negative : Bool) :
    ∃ y, scalar (numbers.render negative units) = .ok (.float y, []) := by
  unfold Decimal.Layout.render
  refine exists_scalar_of_number (fun negative => ?_) negative
  split_ifs with hzero
  · exact number_inPlace negative isWhole_zero (by decide) (by simp) (by simp)
  · have hpos := Decimal.shortest_pos (Nat.pos_of_ne_zero hzero)
    exact number_laidOut negative (trim_pos hpos)
      ((Decimal.Digits.trim_le hpos).trans (Decimal.shortest_le h))

/-- Whether a text is read as a double. -/
def isFloat (s : List Char) : Bool :=
  match scalar s with
  | .ok (.float _, []) => true
  | _ => false

theorem isFloat_iff {s : List Char} : isFloat s ↔ ∃ y, scalar s = .ok (.float y, []) := by
  unfold isFloat
  split
  · next y hy => exact ⟨fun _ => ⟨y, hy⟩, fun _ => rfl⟩
  · next hno => exact ⟨fun h => (by cases h), fun ⟨y, hy⟩ => absurd hy (hno y)⟩

/-- The two largest doubles can be read, with either sign. -/
theorem isFloat_largest : ∀ m ∈ [2 ^ 53 - 2, 2 ^ 53 - 1], ∀ negative,
    isFloat (numbers.render negative (m * 2 ^ 2045)) := by
  decide +kernel

/-- The text of a finite double is read as a double. -/
theorem exists_scalar_floatChars {x : Binary64} (h : x.isFinite) :
    ∃ y, scalar (floatChars x) = .ok (.float y, []) := by
  have hfinite : x.exponentBits ≠ 2047 := by simpa [Binary64.isFinite] using h
  have hvalue : x.value = .finite x.isNegative x.units := if_neg hfinite
  rw [floatChars, hvalue]
  rcases Decimal.units_cases h with hle | ⟨m, hm, heq⟩
  · exact exists_scalar_render hle x.isNegative
  · rw [heq]
    exact isFloat_iff.1 (isFloat_largest m hm x.isNegative)

end CallBridge.Json
