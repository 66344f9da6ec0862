import CallBridge.Binary64

/-!
# The fewest digits that read back

The shortest decimal of a double is the one with the fewest digits among those that read back to
the same double, and of those the one nearest to it. On the grid of decimals with `n` digits the
two neighbours of the number decide whether any decimal of that grid reads back. Seventeen digits
always suffice; beyond them stands the exact value.
-/

namespace CallBridge.Decimal

/-- A decimal: `digits * 10 ^ exponent`. -/
structure Digits where
  digits : Nat
  exponent : Int
  deriving DecidableEq, Repr

/-- The exact value of a number of units. -/
def Digits.ofUnits (units : Nat) : Digits := ⟨units * Nat.pow 5 1074, -1074⟩

/-- The number of decimal digits. -/
def width (n : Nat) : Nat := (Nat.toDigits 10 n).length

/-- The exponent of the first digit of a number of units. -/
def leading (units : Nat) : Int :=
  (width (units * Nat.pow 10 340 / Binary64.one) : Int) - 341

/-- `units / 10 ^ exponent` as a fraction. -/
def scaled (units : Nat) (exponent : Int) : Nat × Nat :=
  if 0 ≤ exponent then (units, Binary64.one * Nat.pow 10 exponent.toNat)
  else (units * Nat.pow 10 (-exponent).toNat, Binary64.one)

/-- The nearer of the two neighbours on the grid of one exponent that reads back, if one does. A tie
goes to the even digit. -/
def onGrid (units : Nat) (exponent : Int) : Option Digits :=
  let (num, den) := scaled units exponent
  let below := num / den
  let nearest := roundHalfEven num den
  let other := if nearest = below then below + 1 else below
  let readsBack (d : Nat) : Bool :=
    Binary64.ofDecimal false d exponent = Binary64.ofUnits false units 1
  if readsBack nearest then some ⟨nearest, exponent⟩
  else if readsBack other then some ⟨other, exponent⟩
  else none

/-- The first grid with a decimal that reads back, from one digit on. -/
def shortest (units : Nat) : Digits :=
  let first := leading units
  ((List.range 17).findSome? fun n : Nat => onGrid units (first - n)).getD (.ofUnits units)

/-- Drop zeros at the end of the digits. -/
def Digits.trim (d : Digits) : Digits :=
  let zeros := ((Nat.toDigits 10 d.digits).reverse.takeWhile (· = '0')).length
  if d.digits = 0 then d else ⟨d.digits / Nat.pow 10 zeros, d.exponent + zeros⟩

end CallBridge.Decimal
