import CallBridge.Decimal.Layout
import CallBridge.Proofs.Decimal.Rounding

/-!
# The decimal written for a double

What is written of a double is a decimal that is rounded to it, or its exact value. Rounding keeps the
order, so the decimal of a double below the second largest one is not above that (`shortest_le`), and
it is not zero (`shortest_pos`). Dropping zeros changes neither.
-/

namespace CallBridge
open Binary64

namespace Binary64

theorem toNat_ofScaled_le (num den : Nat) (hden : 0 < den) (scale : ℤ) :
    (ofScaled false num den scale).bits.toNat ≤ infinityBits := by
  rcases Nat.eq_zero_or_pos num with rfl | hnum
  · simp [ofScaled, zero, ofSigned]
  · obtain ⟨p, a, d, -, -, -, heq⟩ := ofScaled_eq false hnum hden scale
    rw [heq, toNat_ofSigned (Nat.min_le_right ..)]
    exact Nat.min_le_right ..

theorem ofUnits_mono {m n : Nat} (h : m ≤ n) :
    (ofUnits false m 1).bits.toNat ≤ (ofUnits false n 1).bits.toNat := by
  refine ofScaled_mono Nat.one_pos Nat.one_pos ?_
  have hcast : (m : ℚ) ≤ n := by exact_mod_cast h
  simpa using hcast

/-- A decimal that is not below a whole number is not rounded below it. -/
theorem ofNat_le_ofDecimal {n digits : Nat} {exponent : ℤ} (hn : 0 < n)
    (h : (n : ℚ) ≤ digits * 10 ^ exponent) :
    (ofNat n).bits.toNat ≤ (ofDecimal false digits exponent).bits.toNat := by
  have hn' : (1 : ℚ) ≤ n := by exact_mod_cast hn
  have hpower : (10 : ℚ) ^ exponent = 10 ^ exponent.toNat / 10 ^ (-exponent).toNat := by
    rcases Int.le_total 0 exponent with he | he
    · obtain ⟨k, rfl⟩ := Int.eq_ofNat_of_zero_le he
      simp
    · obtain ⟨k, hk⟩ := Int.eq_ofNat_of_zero_le (Int.neg_nonneg.2 he)
      obtain rfl : exponent = -(k : ℤ) := by omega
      simp [zpow_neg]
  unfold ofDecimal
  split_ifs with hzero hhigh hlow
  · rw [hzero, Nat.cast_zero, zero_mul] at h
    linarith
  · have hinfinity : (infinity false).bits.toNat = infinityBits := toNat_ofSigned (Nat.le_refl _)
    rw [hinfinity]
    exact toNat_ofScaled_le _ _ Nat.one_pos _
  · -- a decimal that is not worked out is below one
    obtain ⟨k, hk⟩ := Int.eq_ofNat_of_zero_le (show 0 ≤ -exponent by omega)
    obtain rfl : exponent = -(k : ℤ) := by omega
    have hdigits : digits < 2 ^ (3 * k) := Nat.lt_of_lt_of_le Nat.lt_log2_self
      (Nat.pow_le_pow_right (by decide) (by omega))
    have hten : 2 ^ (3 * k) ≤ 10 ^ k := by
      rw [Nat.pow_mul]
      exact Nat.pow_le_pow_left (by decide) k
    have hlt : (digits : ℚ) < 10 ^ k := by exact_mod_cast Nat.lt_of_lt_of_le hdigits hten
    rw [zpow_neg, zpow_natCast, ← div_eq_mul_inv, le_div_iff₀ (by positivity)] at h
    nlinarith [pow_pos (by norm_num : (0 : ℚ) < 10) k]
  · refine ofScaled_mono Nat.one_pos (Nat.pow_pos (by decide)) ?_
    have hscale : (0 : ℚ) < 2 ^ unitScale := by positivity
    rw [hpower, ← mul_div_assoc] at h
    simpa using mul_le_mul_of_nonneg_right h hscale.le

end Binary64

namespace Decimal

/-- What a decimal stands for. -/
def Digits.value (d : Digits) : ℚ := d.digits * 10 ^ d.exponent

theorem Digits.value_ofUnits (units : Nat) : (ofUnits units).value = units / 2 ^ 1074 := by
  have hten : (10 : ℚ) ^ 1074 = 5 ^ 1074 * 2 ^ 1074 := by rw [← mul_pow]; norm_num
  rw [ofUnits, value, zpow_neg, show (1074 : ℤ) = (1074 : Nat) from rfl, zpow_natCast, hten]
  simp only [Nat.pow_eq, Nat.cast_mul, Nat.cast_pow, Nat.cast_ofNat]
  field_simp

theorem onGrid_readsBack {units : Nat} {exponent : Int} {d : Digits}
    (h : onGrid units exponent = some d) :
    ofDecimal false d.digits d.exponent = ofUnits false units 1 := by
  unfold onGrid at h
  dsimp only at h
  split_ifs at h with hnearest hother hother
  all_goals
    obtain rfl := Option.some.inj h
    simp_all

theorem shortest_eq (units : Nat) :
    shortest units = .ofUnits units ∨ ∃ exponent, onGrid units exponent = some (shortest units) := by
  unfold shortest
  dsimp only
  cases h : (List.range 17).findSome? fun n : Nat => onGrid units (leading units - n) with
  | none => exact .inl Option.getD_none
  | some d =>
    obtain ⟨n, -, hn⟩ := List.exists_of_findSome?_eq_some h
    exact .inr ⟨_, hn⟩

/-- The decimal of a double is its exact value or reads back to it. -/
theorem shortest_cases (units : Nat) : shortest units = .ofUnits units ∨
    ofDecimal false (shortest units).digits (shortest units).exponent = ofUnits false units 1 :=
  (shortest_eq units).imp_right fun ⟨_, h⟩ => onGrid_readsBack h

/-- The decimal of a double that is not zero is not zero. -/
theorem shortest_pos {units : Nat} (h : 0 < units) : 0 < (shortest units).digits := by
  rcases shortest_cases units with hexact | hreads
  · have hfive : ∀ n, 0 < Nat.pow 5 n := fun _ => Nat.pow_pos (by decide)
    rw [hexact]
    exact Nat.mul_pos h (hfive 1074)
  · refine Nat.pos_of_ne_zero fun hzero => ?_
    have hone : (ofUnits false 1 1).bits.toNat ≤ (ofUnits false units 1).bits.toNat := ofUnits_mono h
    have hnothing : ofDecimal false 0 (shortest units).exponent = zero false := if_pos rfl
    rw [← hreads, hzero, hnothing] at hone
    exact absurd hone (by decide +kernel)

/-- The second largest double; it is a whole number. -/
def secondLargest : Nat := (2 ^ 53 - 2) * 2 ^ 971

/-- The units of the double below it. -/
def thirdLargestUnits : Nat := (2 ^ 53 - 3) * 2 ^ 2045

/-- Above the third largest double there are two. -/
theorem units_cases {x : Binary64} (h : x.isFinite) : x.units ≤ thirdLargestUnits ∨
    ∃ m ∈ [2 ^ 53 - 2, 2 ^ 53 - 1], x.units = m * 2 ^ 2045 := by
  have hbits : x.exponentBits < 2048 := Nat.mod_lt _ (by decide)
  have hfinite : x.exponentBits ≠ 2047 := by simpa [isFinite] using h
  have hfraction : x.fraction < 2 ^ 52 := Nat.mod_lt _ (by decide)
  have hmantissa : x.mantissa ≤ 2 ^ 53 - 1 := by
    rw [mantissa]
    split_ifs
    · omega
    · rw [Nat.pow_eq]
      omega
  have hexponent : x.exponent ≤ 2045 := by
    rw [exponent]
    omega
  have hunits : x.units = x.mantissa * 2 ^ x.exponent := rfl
  rcases Nat.lt_or_eq_of_le hexponent with hlt | heq
  · refine .inl ?_
    calc x.units ≤ (2 ^ 53 - 1) * 2 ^ 2044 :=
          Nat.mul_le_mul hmantissa (Nat.pow_le_pow_right (by decide) (by omega))
      _ ≤ thirdLargestUnits := by decide +kernel
  rw [heq] at hunits
  by_cases hlow : x.mantissa ≤ 2 ^ 53 - 3
  · rw [hunits, thirdLargestUnits]
    exact .inl (Nat.mul_le_mul_right _ hlow)
  · have hcases : x.mantissa = 2 ^ 53 - 2 ∨ x.mantissa = 2 ^ 53 - 1 := by omega
    exact .inr ⟨x.mantissa, by simpa using hcases, hunits⟩

theorem ofUnits_thirdLargestUnits :
    (ofUnits false thirdLargestUnits 1).bits.toNat < (Binary64.ofNat secondLargest).bits.toNat := by
  decide +kernel

/-- The decimal of a double below the second largest one is not above that. -/
theorem shortest_le {units : Nat} (h : units ≤ thirdLargestUnits) :
    (shortest units).value ≤ secondLargest := by
  rcases shortest_cases units with hexact | hreads
  · have hunits : (units : ℚ) ≤ secondLargest * 2 ^ 1074 := by
      have hle : units ≤ secondLargest * 2 ^ 1074 := h.trans (by decide +kernel)
      exact_mod_cast hle
    rwa [hexact, Digits.value_ofUnits, div_le_iff₀ (by positivity)]
  · by_contra hgt
    have hle := ofNat_le_ofDecimal (by decide +kernel) (not_le.1 hgt).le
    rw [hreads] at hle
    exact absurd (hle.trans (ofUnits_mono h)) (Nat.not_le.2 ofUnits_thirdLargestUnits)

/-! ### Without the zeros at the end -/

/-- The number of zeros at the end of the digits. -/
def Digits.zeros (d : Digits) : Nat :=
  ((Nat.toDigits 10 d.digits).reverse.takeWhile (· = '0')).length

theorem Digits.trim_eq {d : Digits} (h : 0 < d.digits) :
    d.trim = ⟨d.digits / 10 ^ d.zeros, d.exponent + d.zeros⟩ := if_neg h.ne'

theorem Digits.trim_le {d : Digits} (h : 0 < d.digits) : d.trim.value ≤ d.value := by
  have hdiv : (d.digits / 10 ^ d.zeros : Nat) * 10 ^ d.zeros ≤ d.digits := Nat.div_mul_le_self ..
  have hdiv' : ((d.digits / 10 ^ d.zeros : Nat) * 10 ^ d.zeros : ℚ) ≤ d.digits := by
    exact_mod_cast hdiv
  rw [d.trim_eq h, value, value, zpow_add₀ (by norm_num), zpow_natCast,
    mul_comm ((10 : ℚ) ^ d.exponent), ← mul_assoc]
  exact mul_le_mul_of_nonneg_right hdiv' (by positivity)

end Decimal
end CallBridge
