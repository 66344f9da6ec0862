/-!
# Rounding a quotient

`roundHalfEven` takes a quotient of naturals to the nearest natural and a half to the even
neighbour; its error is at most half a unit.
-/

namespace CallBridge

/-- The natural nearest to `num / den`; a half goes to the even neighbour. -/
def roundHalfEven (num den : Nat) : Nat :=
  let q := num / den
  let r := num % den
  if 2 * r < den then q
  else if den < 2 * r then q + 1
  else if q % 2 = 0 then q else q + 1

/-- A quotient without remainder is its own rounding. -/
theorem roundHalfEven_of_dvd {n den : Nat} (h : 0 < den) : roundHalfEven (n * den) den = n := by
  simp [roundHalfEven, Nat.mul_mod_left, Nat.mul_div_cancel _ h, h]

/-- The rounding is one of the two neighbours of the quotient. -/
theorem roundHalfEven_eq_or (num den : Nat) :
    roundHalfEven num den = num / den ∨ roundHalfEven num den = num / den + 1 := by
  simp only [roundHalfEven]
  repeat' split
  all_goals simp

end CallBridge
