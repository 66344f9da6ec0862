import CallBridge.Binary64
import Mathlib.Algebra.Order.Field.Rat
import Mathlib.Algebra.Order.Field.Power
import Mathlib.Tactic.FieldSimp
import Mathlib.Tactic.Linarith
import Mathlib.Tactic.Positivity
import Mathlib.Tactic.Ring

/-!
# Rounding keeps the order

A double is rounded from a rational number of units. `Binade q p` says how many places the last bit
of the rounding stands above the unit: a number of a higher binade is rounded to a larger double, and
within a binade the mantissas keep the order (`ofScaled_mono`). So do products and quotients of
finite doubles (`mul_mono`, `div_mono`), and a product is finite if a larger factor makes it so
(`isFinitePositive_mul_of_le`).
-/

namespace CallBridge

/-! ### Quotients -/

section
variable {a d a' d' m : Nat}

theorem roundHalfEven_mono (hd : 0 < d) (hd' : 0 < d') (h : a * d' ≤ a' * d) :
    roundHalfEven a d ≤ roundHalfEven a' d' := by
  have ha := Nat.div_add_mod a d
  have ha' := Nat.div_add_mod a' d'
  have hr := Nat.mod_lt a hd
  have hr' := Nat.mod_lt a' hd'
  have hfloor : a / d ≤ a' / d' := by
    rw [Nat.le_div_iff_mul_le hd']
    refine Nat.le_of_mul_le_mul_right ?_ hd
    calc a / d * d' * d = a / d * d * d' := by ring
      _ ≤ a * d' := Nat.mul_le_mul_right _ (Nat.div_mul_le_self a d)
      _ ≤ a' * d := h
  rcases Nat.lt_or_eq_of_le hfloor with hlt | heq
  · rcases roundHalfEven_eq_or a d with h₁ | h₁ <;> rcases roundHalfEven_eq_or a' d' with h₂ | h₂ <;>
      omega
  · -- between the same neighbours the remainders decide
    have hrest : a % d * d' ≤ a' % d' * d := by
      rw [← ha, ← ha', heq] at h
      have hexpand : (d * (a' / d') + a % d) * d' = d * d' * (a' / d') + a % d * d' := by ring
      have hexpand' : (d' * (a' / d') + a' % d') * d = d * d' * (a' / d') + a' % d' * d := by ring
      omega
    have hbelow : d ≤ 2 * (a % d) → d' ≤ 2 * (a' % d') := by
      intro hhalf
      by_contra hlow
      nlinarith
    have habove : d < 2 * (a % d) → d' < 2 * (a' % d') := by
      intro hhalf
      by_contra hlow
      nlinarith
    simp only [roundHalfEven, heq]
    split_ifs <;> omega

theorem le_roundHalfEven (hd : 0 < d) (h : m * d ≤ a) : m ≤ roundHalfEven a d := by
  calc m = roundHalfEven (m * d) d := (roundHalfEven_of_dvd hd).symm
    _ ≤ roundHalfEven a d := roundHalfEven_mono hd hd (Nat.mul_le_mul_right d h)

theorem roundHalfEven_le (hd : 0 < d) (h : a ≤ m * d) : roundHalfEven a d ≤ m := by
  calc roundHalfEven a d ≤ roundHalfEven (m * d) d :=
        roundHalfEven_mono hd hd (Nat.mul_le_mul_right d h)
    _ = m := roundHalfEven_of_dvd hd

end

namespace Binary64

/-! ### Binades -/

theorem two_zpow (e : ℤ) : (2 : ℚ) ^ e = 2 ^ e.toNat / 2 ^ (-e).toNat := by
  rcases Int.le_total 0 e with he | he
  · have hneg : (-e).toNat = 0 := by omega
    rw [hneg, pow_zero, div_one, ← zpow_natCast, Int.toNat_of_nonneg he]
  · have hpos : e.toNat = 0 := by omega
    rw [hpos, pow_zero, one_div, ← zpow_natCast, Int.toNat_of_nonneg (by omega), zpow_neg, inv_inv]

theorem two_zpow_sub (m n : Nat) : (2 : ℚ) ^ ((m : ℤ) - n) = 2 ^ m / 2 ^ n := by
  rw [zpow_sub₀ (by norm_num), zpow_natCast, zpow_natCast]

/-- Two to the power of `floorLog` is the largest one that is not above the quotient. -/
theorem floorLog_spec {num den : Nat} (hnum : 0 < num) (hden : 0 < den) :
    (2 : ℚ) ^ floorLog num den ≤ num / den ∧ (num / den : ℚ) < 2 ^ (floorLog num den + 1) := by
  have hnum' : (0 : ℚ) < num := by exact_mod_cast hnum
  have hden' : (0 : ℚ) < den := by exact_mod_cast hden
  have hlow : (2 : ℚ) ^ num.log2 ≤ num := by exact_mod_cast Nat.log2_self_le hnum.ne'
  have hhigh : (num : ℚ) < 2 ^ (num.log2 + 1) := by exact_mod_cast Nat.lt_log2_self
  have hlow' : (2 : ℚ) ^ den.log2 ≤ den := by exact_mod_cast Nat.log2_self_le hden.ne'
  have hhigh' : (den : ℚ) < 2 ^ (den.log2 + 1) := by exact_mod_cast Nat.lt_log2_self
  have hpow : ∀ n : Nat, (0 : ℚ) < 2 ^ n := fun n => by positivity
  set e : ℤ := (num.log2 : ℤ) - den.log2 with he
  have hcond : den * Nat.pow 2 e.toNat ≤ num * Nat.pow 2 (-e).toNat ↔
      (2 : ℚ) ^ e ≤ num / den := by
    rw [two_zpow, div_le_div_iff₀ (hpow _) hden', ← Nat.cast_le (α := ℚ)]
    simp only [Nat.pow_eq, Nat.cast_mul, Nat.cast_pow, Nat.cast_ofNat]
    rw [mul_comm (den : ℚ)]
  have hup : (num / den : ℚ) < 2 ^ (e + 1) := by
    have hexp : e + 1 = (num.log2 + 1 : Nat) - den.log2 := by omega
    rw [hexp, two_zpow_sub, div_lt_div_iff₀ hden' (hpow _)]
    calc (num : ℚ) * 2 ^ den.log2 < 2 ^ (num.log2 + 1) * 2 ^ den.log2 :=
          mul_lt_mul_of_pos_right hhigh (hpow _)
      _ ≤ 2 ^ (num.log2 + 1) * den := mul_le_mul_of_nonneg_left hlow' (hpow _).le
  have hdown : (2 : ℚ) ^ (e - 1) < num / den := by
    have hexp : e - 1 = num.log2 - (den.log2 + 1 : Nat) := by omega
    rw [hexp, two_zpow_sub, div_lt_div_iff₀ (hpow _) hden']
    calc (2 : ℚ) ^ num.log2 * den < 2 ^ num.log2 * 2 ^ (den.log2 + 1) :=
          mul_lt_mul_of_pos_left hhigh' (hpow _)
      _ ≤ num * 2 ^ (den.log2 + 1) := mul_le_mul_of_nonneg_right hlow (hpow _).le
  unfold floorLog
  rw [← he]
  dsimp only
  split_ifs with h
  · exact ⟨hcond.1 h, hup⟩
  · rw [hcond, not_le] at h
    exact ⟨hdown.le, by rwa [sub_add_cancel]⟩

/-- A number of units is rounded `p` places above the unit: its mantissa has 53 places, or fewer if
it is rounded to units. -/
structure Binade (q : ℚ) (p : Nat) : Prop where
  lt : q < 2 ^ (p + 53)
  le : p = 0 ∨ 2 ^ (p + 52) ≤ q

/-- How a positive number of units is rounded: to a mantissa at its place. -/
theorem ofScaled_eq (negative : Bool) {num den : Nat} (hnum : 0 < num) (hden : 0 < den)
    (scale : ℤ) : ∃ p a d : Nat, 0 < d ∧
      Binade (num / den * 2 ^ scale) p ∧ (a / d : ℚ) * 2 ^ p = num / den * 2 ^ scale ∧
      ofScaled negative num den scale =
        ofSigned negative (min (p * Nat.pow 2 52 + roundHalfEven a d) infinityBits) := by
  obtain ⟨hlow, hhigh⟩ := floorLog_spec hnum hden
  have hscale : (0 : ℚ) < 2 ^ scale := by positivity
  set p := (floorLog num den + scale - 52).toNat with hp
  set shift : ℤ := scale - p with hshift
  refine ⟨p, num * Nat.pow 2 shift.toNat, den * Nat.pow 2 (-shift).toNat, ?_, ⟨?_, ?_⟩, ?_, ?_⟩
  · exact Nat.mul_pos hden (Nat.two_pow_pos _)
  · calc (num / den : ℚ) * 2 ^ scale < 2 ^ (floorLog num den + 1) * 2 ^ scale :=
          mul_lt_mul_of_pos_right hhigh hscale
      _ = 2 ^ (floorLog num den + 1 + scale) := (zpow_add₀ (by norm_num) _ _).symm
      _ ≤ 2 ^ ((p + 53 : Nat) : ℤ) := zpow_le_zpow_right₀ (by norm_num) (by omega)
      _ = 2 ^ (p + 53) := zpow_natCast _ _
  · by_cases hzero : p = 0
    · exact .inl hzero
    · refine .inr ?_
      calc (2 : ℚ) ^ (p + 52) = 2 ^ ((p + 52 : Nat) : ℤ) := (zpow_natCast _ _).symm
        _ = 2 ^ (floorLog num den + scale) := by congr 1; omega
        _ = 2 ^ floorLog num den * 2 ^ scale := zpow_add₀ (by norm_num) _ _
        _ ≤ num / den * 2 ^ scale := mul_le_mul_of_nonneg_right hlow hscale.le
  · have hsplit : (2 : ℚ) ^ scale = 2 ^ shift * 2 ^ p := by
      rw [← zpow_natCast (2 : ℚ) p, ← zpow_add₀ (by norm_num), hshift, sub_add_cancel]
    rw [hsplit, two_zpow]
    simp only [Nat.pow_eq, Nat.cast_mul, Nat.cast_pow, Nat.cast_ofNat]
    rw [mul_div_mul_comm, mul_assoc]
  · rw [ofScaled, if_neg hnum.ne']

theorem toNat_ofSigned {rest : Nat} (h : rest ≤ infinityBits) :
    (ofSigned false rest).bits.toNat = rest := by
  have hlt : rest < 18446744073709551616 := Nat.lt_of_le_of_lt h (by decide)
  simp [ofSigned, hlt]

section
variable {q q' : ℚ} {p p' a d a' d' : Nat}

theorem Binade.le_of_le (h : Binade q p) (h' : Binade q' p') (hq : q ≤ q') : p ≤ p' := by
  rcases h.le with rfl | hlow
  · exact Nat.zero_le _
  · have hpow : (2 : ℚ) ^ (p + 52) < 2 ^ (p' + 53) := lt_of_le_of_lt (hlow.trans hq) h'.lt
    have := (pow_lt_pow_iff_right₀ (by norm_num : (1 : ℚ) < 2)).1 hpow
    omega

theorem roundHalfEven_le_of_binade (hd : 0 < d) (h : Binade q p) (hq : (a / d : ℚ) * 2 ^ p = q) :
    roundHalfEven a d ≤ 2 ^ 53 := by
  have hd' : (0 : ℚ) < d := by exact_mod_cast hd
  have hlt : (a / d : ℚ) * 2 ^ p < 2 ^ 53 * 2 ^ p := by
    rw [hq, ← pow_add, Nat.add_comm]
    exact h.lt
  have hquot : (a / d : ℚ) < 2 ^ 53 := lt_of_mul_lt_mul_right hlt (by positivity)
  rw [div_lt_iff₀ hd'] at hquot
  exact roundHalfEven_le hd (by exact_mod_cast hquot.le)

theorem le_roundHalfEven_of_binade (hd : 0 < d) (h : Binade q p) (hp : p ≠ 0)
    (hq : (a / d : ℚ) * 2 ^ p = q) : 2 ^ 52 ≤ roundHalfEven a d := by
  have hd' : (0 : ℚ) < d := by exact_mod_cast hd
  have hle : (2 : ℚ) ^ 52 * 2 ^ p ≤ a / d * 2 ^ p := by
    rw [hq, ← pow_add, Nat.add_comm]
    exact h.le.resolve_left hp
  have hquot : (2 : ℚ) ^ 52 ≤ a / d := le_of_mul_le_mul_right hle (by positivity)
  rw [le_div_iff₀ hd'] at hquot
  exact le_roundHalfEven hd (by exact_mod_cast hquot)

end

/-- Of two numbers of units the larger one is rounded to the larger double. -/
theorem ofScaled_mono {num den num' den' : Nat} (hden : 0 < den) (hden' : 0 < den')
    {scale scale' : ℤ} (h : (num / den : ℚ) * 2 ^ scale ≤ num' / den' * 2 ^ scale') :
    (ofScaled false num den scale).bits.toNat ≤ (ofScaled false num' den' scale').bits.toNat := by
  rcases Nat.eq_zero_or_pos num with rfl | hnum
  · simp [ofScaled, zero, ofSigned]
  have hnum' : 0 < num' := by
    refine Nat.pos_of_ne_zero fun hzero => ?_
    have hpos : (0 : ℚ) < num / den * 2 ^ scale := by positivity
    rw [hzero, Nat.cast_zero, zero_div, zero_mul] at h
    exact absurd h (not_le.2 hpos)
  obtain ⟨p, a, d, hd, hbinade, hq, heq⟩ := ofScaled_eq false hnum hden scale
  obtain ⟨p', a', d', hd', hbinade', hq', heq'⟩ := ofScaled_eq false hnum' hden' scale'
  rw [heq, heq', toNat_ofSigned (Nat.min_le_right ..), toNat_ofSigned (Nat.min_le_right ..)]
  refine min_le_min_right _ ?_
  rcases Nat.lt_or_eq_of_le (hbinade.le_of_le hbinade' h) with hlt | rfl
  · have hhigh := roundHalfEven_le_of_binade hd hbinade hq
    have hlow := le_roundHalfEven_of_binade hd' hbinade' (by omega) hq'
    have hstep : (p + 1) * 2 ^ 52 ≤ p' * 2 ^ 52 := Nat.mul_le_mul_right _ hlt
    simp only [Nat.pow_eq]
    omega
  · have hquot : (a / d : ℚ) ≤ a' / d' := by
      rw [← hq, ← hq'] at h
      exact le_of_mul_le_mul_right h (by positivity)
    have hcross : a * d' ≤ a' * d := by
      rw [div_le_div_iff₀ (by exact_mod_cast hd) (by exact_mod_cast hd')] at hquot
      exact_mod_cast hquot
    exact Nat.add_le_add_left (roundHalfEven_mono hd hd' hcross) _

/-! ### Doubles in their order -/

/-- The number of units of a double that is finite. -/
def units (x : Binary64) : Nat := x.mantissa * Nat.pow 2 x.exponent

/-- A double that is neither negative nor infinite. -/
def IsFinitePositive (x : Binary64) : Prop := x.bits.toNat < infinityBits

instance (x : Binary64) : Decidable x.IsFinitePositive :=
  inferInstanceAs (Decidable (x.bits.toNat < infinityBits))

section
variable {x x' y : Binary64}

theorem IsFinitePositive.exponentBits (h : x.IsFinitePositive) :
    x.exponentBits = x.bits.toNat / 2 ^ 52 ∧ x.exponentBits < 2047 := by
  have hlt : x.bits.toNat / 2 ^ 52 < 2047 := Nat.div_lt_of_lt_mul (by rw [Nat.mul_comm]; exact h)
  have heq : x.exponentBits = x.bits.toNat / 2 ^ 52 := Nat.mod_eq_of_lt (by simp only [Nat.pow_eq]; omega)
  exact ⟨heq, heq ▸ hlt⟩

theorem IsFinitePositive.isFinite (h : x.IsFinitePositive) : x.isFinite = true := by
  simpa [Binary64.isFinite] using Nat.ne_of_lt h.exponentBits.2

theorem IsFinitePositive.isNegative (h : x.IsFinitePositive) : x.isNegative = false := by
  have hlt : x.bits.toNat < Nat.pow 2 63 := Nat.lt_trans h (by decide)
  simpa [Binary64.isNegative] using hlt

theorem units_mono (h : x.IsFinitePositive) (h' : x'.IsFinitePositive)
    (hle : x.bits.toNat ≤ x'.bits.toNat) : x.units ≤ x'.units := by
  have hfraction : x.fraction < 2 ^ 52 := Nat.mod_lt _ (Nat.two_pow_pos _)
  have hplaces : x.exponentBits ≤ x'.exponentBits := by
    rw [h.exponentBits.1, h'.exponentBits.1]
    exact Nat.div_le_div_right hle
  rcases Nat.lt_or_eq_of_le hplaces with hlt | heq
  · -- from a higher place the least mantissa counts for more
    have hlow : 2 ^ 52 * 2 ^ (x'.exponentBits - 1) ≤ x'.units := by
      rw [units, mantissa, if_neg (by omega)]
      exact Nat.mul_le_mul_right _ (Nat.le_add_right ..)
    refine Nat.le_trans ?_ hlow
    rw [units, mantissa, exponent]
    split_ifs with hzero
    · rw [hzero]
      exact Nat.le_trans (by simpa using hfraction.le) (Nat.le_mul_of_pos_right _ (Nat.two_pow_pos _))
    · have hstep : 2 ^ (x.exponentBits - 1) * 2 ≤ 2 ^ (x'.exponentBits - 1) := by
        rw [← Nat.pow_succ]
        exact Nat.pow_le_pow_right (by decide) (by omega)
      simp only [Nat.pow_eq]
      nlinarith [Nat.two_pow_pos (x.exponentBits - 1)]
  · have hle' : x.fraction ≤ x'.fraction := by
      have hx := Nat.div_add_mod x.bits.toNat (2 ^ 52)
      have hx' := Nat.div_add_mod x'.bits.toNat (2 ^ 52)
      rw [h.exponentBits.1, h'.exponentBits.1] at heq
      rw [heq] at hx
      simp only [fraction, Nat.pow_eq]
      omega
    rw [units, units, mantissa, mantissa, exponent, exponent, heq]
    split_ifs
    · exact Nat.mul_le_mul_right _ hle'
    · exact Nat.mul_le_mul_right _ (Nat.add_le_add_left hle' _)

theorem IsFinitePositive.isNaN (h : x.IsFinitePositive) : x.isNaN = false := by
  simp [Binary64.isNaN, Nat.ne_of_lt h.exponentBits.2]

theorem IsFinitePositive.isInfinite (h : x.IsFinitePositive) : x.isInfinite = false := by
  simp [Binary64.isInfinite, Nat.ne_of_lt h.exponentBits.2]

theorem IsFinitePositive.value_eq (h : x.IsFinitePositive) : x.value = .finite false x.units := by
  rw [value, if_neg (Nat.ne_of_lt h.exponentBits.2), h.isNegative, units]

theorem IsFinitePositive.place_eq (h : x.IsFinitePositive) :
    x.place.toNat = x.bits.toNat + 2 ^ 63 := by
  have hlt : x.bits.toNat < 2 ^ 63 := Nat.lt_trans h (by decide)
  have hbits : x.bits < 0x8000000000000000 := UInt64.lt_iff_toNat_lt.2 hlt
  rw [place, if_pos hbits, UInt64.toNat_add]
  exact Nat.mod_eq_of_lt (Nat.add_lt_add_right hlt _)

/-- Finite doubles that are not negative have the order of their bits. -/
theorem lt_eq (h : x.IsFinitePositive) (h' : x'.IsFinitePositive) :
    x.lt x' = decide (x.bits.toNat < x'.bits.toNat) := by
  rw [lt, h.isNaN, h'.isNaN, Bool.eq_iff_iff]
  simp only [Bool.not_false, Bool.true_and, decide_eq_true_iff, UInt64.lt_iff_toNat_lt, h.place_eq,
    h'.place_eq, Nat.add_lt_add_iff_right]

theorem roundHalfUp_mono (h : x.IsFinitePositive) (h' : x'.IsFinitePositive)
    (hle : x.bits.toNat ≤ x'.bits.toNat) : x.roundHalfUp ≤ x'.roundHalfUp := by
  have hunits := units_mono h h' hle
  simp only [roundHalfUp, h.value_eq, h'.value_eq]
  exact Nat.div_le_div_right (by omega)

theorem mul_eq (hx : x.IsFinitePositive) (hy : y.IsFinitePositive) :
    x.mul y = ofScaled false (x.mantissa * y.mantissa) 1 (x.exponent + y.exponent - unitScale) := by
  simp [mul, hx.isNaN, hy.isNaN, hx.isInfinite, hy.isInfinite, hx.isNegative, hy.isNegative]

/-- Larger factors have the larger product. -/
theorem mul_mono {y' : Binary64} (hx : x.IsFinitePositive) (hx' : x'.IsFinitePositive)
    (hy : y.IsFinitePositive) (hy' : y'.IsFinitePositive) (hle : x.bits.toNat ≤ x'.bits.toNat)
    (hle' : y.bits.toNat ≤ y'.bits.toNat) : (x.mul y).bits.toNat ≤ (x'.mul y').bits.toNat := by
  rw [mul_eq hx hy, mul_eq hx' hy']
  have hvalue : ∀ z w : Binary64, ((z.mantissa * w.mantissa : Nat) / (1 : Nat) : ℚ) *
      2 ^ ((z.exponent : ℤ) + w.exponent - unitScale) = z.units * w.units / 2 ^ unitScale := by
    intro z w
    rw [zpow_sub₀ (by norm_num), zpow_add₀ (by norm_num), zpow_natCast, zpow_natCast, units, units]
    simp only [Nat.pow_eq, Nat.cast_mul, Nat.cast_pow, Nat.cast_ofNat, Nat.cast_one]
    ring
  refine ofScaled_mono Nat.one_pos Nat.one_pos ?_
  rw [hvalue, hvalue]
  have hunits : (x.units : ℚ) * y.units ≤ x'.units * y'.units := by
    exact_mod_cast Nat.mul_le_mul (units_mono hx hx' hle) (units_mono hy hy' hle')
  exact div_le_div_of_nonneg_right hunits (by positivity)

/-- What a double multiplies a larger one by without leaving the range, it multiplies a smaller one by
as well. -/
theorem isFinitePositive_mul_of_le (hx : x.IsFinitePositive) (hx' : x'.IsFinitePositive)
    (hy : y.IsFinitePositive) (hle : x.bits.toNat ≤ x'.bits.toNat)
    (hmul : (x'.mul y).IsFinitePositive) : (x.mul y).IsFinitePositive :=
  Nat.lt_of_le_of_lt (mul_mono hx hx' hy hy hle (Nat.le_refl _)) hmul

theorem div_eq (hx : x.IsFinitePositive) (hy : y.IsFinitePositive) (hpos : 0 < y.units) :
    x.div y = ofScaled false x.mantissa y.mantissa (x.exponent - y.exponent + unitScale) := by
  have hmantissa : y.mantissa ≠ 0 := (Nat.pos_of_mul_pos_right hpos).ne'
  simp [div, hx.isNaN, hy.isNaN, hx.isInfinite, hy.isInfinite, hx.isNegative, hy.isNegative,
    hmantissa]

/-- A larger dividend and a smaller divisor have the larger quotient. -/
theorem div_mono {y' : Binary64} (hx : x.IsFinitePositive) (hx' : x'.IsFinitePositive)
    (hy : y.IsFinitePositive) (hy' : y'.IsFinitePositive) (hpos : 0 < y'.units)
    (hle : x.bits.toNat ≤ x'.bits.toNat) (hle' : y'.bits.toNat ≤ y.bits.toNat) :
    (x.div y).bits.toNat ≤ (x'.div y').bits.toNat := by
  have hdivisor : y'.units ≤ y.units := units_mono hy' hy hle'
  have hpos' : 0 < y.units := Nat.lt_of_lt_of_le hpos hdivisor
  rw [div_eq hx hy hpos', div_eq hx' hy' hpos]
  have hvalue : ∀ z w : Binary64, ((z.mantissa : ℚ) / w.mantissa) *
      2 ^ ((z.exponent : ℤ) - w.exponent + unitScale) = z.units / w.units * 2 ^ unitScale := by
    intro z w
    rw [zpow_add₀ (by norm_num), zpow_sub₀ (by norm_num), zpow_natCast, zpow_natCast, units, units]
    simp only [Nat.pow_eq, Nat.cast_mul, Nat.cast_pow, Nat.cast_ofNat]
    ring
  refine ofScaled_mono (Nat.pos_of_mul_pos_right hpos') (Nat.pos_of_mul_pos_right hpos) ?_
  rw [hvalue, hvalue]
  have hquotient : (x.units : ℚ) / y.units ≤ x'.units / y'.units := by
    rw [div_le_div_iff₀ (by exact_mod_cast hpos') (by exact_mod_cast hpos)]
    exact_mod_cast Nat.mul_le_mul (units_mono hx hx' hle) hdivisor
  exact mul_le_mul_of_nonneg_right hquotient (by positivity)

theorem ofNat_mono {m n : Nat} (h : m ≤ n) : (ofNat m).bits.toNat ≤ (ofNat n).bits.toNat := by
  refine ofScaled_mono Nat.one_pos Nat.one_pos ?_
  have hcast : (m : ℚ) ≤ n := by exact_mod_cast h
  have hscale : (0 : ℚ) < 2 ^ unitScale := by positivity
  simpa using mul_le_mul_of_nonneg_right hcast hscale.le

end

end Binary64
end CallBridge
