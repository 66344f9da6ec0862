import CallBridge.Rounding

/-!
# Double-precision numbers

A double is its 64 bits. Every finite double is a whole number of units, the unit being the
smallest positive double `2 ^ -1074`, so values are compared, added, multiplied and divided exactly
in whole numbers and rounded once, to the nearest double with ties to the even one.
-/

namespace CallBridge

/-- A double-precision number, given by its bits. -/
structure Binary64 where
  bits : UInt64
  deriving DecidableEq, Repr, Inhabited

/-- What the bits of a double stand for; a finite one is `units` times the smallest positive one. -/
inductive Binary64.Value where
  | nan
  | infinite (negative : Bool)
  | finite (negative : Bool) (units : Nat)
  deriving DecidableEq, Repr

namespace Binary64

/-- The number of units in one. -/
def one : Nat := Nat.pow 2 1074

/-- The bit pattern of infinity without its sign. -/
def infinityBits : Nat := 2047 * Nat.pow 2 52

/-- A double from its sign and the rest of its bits. -/
def ofSigned (negative : Bool) (rest : Nat) : Binary64 :=
  ⟨UInt64.ofNat (if negative then Nat.pow 2 63 + rest else rest)⟩

def zero (negative : Bool) : Binary64 := ofSigned negative 0

def infinity (negative : Bool) : Binary64 := ofSigned negative infinityBits

def nan : Binary64 := ofSigned false (infinityBits + Nat.pow 2 51)

/-- Whether the sign bit is set. -/
def isNegative (x : Binary64) : Bool := Nat.pow 2 63 ≤ x.bits.toNat

def exponentBits (x : Binary64) : Nat := x.bits.toNat / Nat.pow 2 52 % Nat.pow 2 11

/-- The bits after the exponent. -/
def fraction (x : Binary64) : Nat := x.bits.toNat % Nat.pow 2 52

/-- A finite double is `mantissa * 2 ^ exponent` units. -/
def mantissa (x : Binary64) : Nat :=
  if x.exponentBits = 0 then x.fraction else Nat.pow 2 52 + x.fraction

def exponent (x : Binary64) : Nat := x.exponentBits - 1

/-- What the bits stand for. -/
def value (x : Binary64) : Value :=
  if x.exponentBits = 2047 then
    if x.fraction = 0 then .infinite x.isNegative else .nan
  else .finite x.isNegative (x.mantissa * Nat.pow 2 x.exponent)

/-- Not a number. -/
def isNaN (x : Binary64) : Bool := x.exponentBits = 2047 && x.fraction ≠ 0

/-- Infinite, with either sign. -/
def isInfinite (x : Binary64) : Bool := x.exponentBits = 2047 && x.fraction = 0

/-- The exponent of the highest power of two that is not above `num / den`. -/
def floorLog (num den : Nat) : Int :=
  let e := (num.log2 : Int) - den.log2
  if den * Nat.pow 2 e.toNat ≤ num * Nat.pow 2 (-e).toNat then e else e - 1

/-- The double nearest to `num / den * 2 ^ scale` units, infinite if that is beyond the largest
finite one. -/
def ofScaled (negative : Bool) (num den : Nat) (scale : Int) : Binary64 :=
  if num = 0 then zero negative
  else
    let exponent := (floorLog num den + scale - 52).toNat
    let shift := scale - exponent
    let mantissa := roundHalfEven (num * Nat.pow 2 shift.toNat) (den * Nat.pow 2 (-shift).toNat)
    ofSigned negative (min (exponent * Nat.pow 2 52 + mantissa) infinityBits)

/-- The double nearest to `num / den` units. -/
def ofUnits (negative : Bool) (num den : Nat) : Binary64 := ofScaled negative num den 0

/-- One is this power of two in units. -/
def unitScale : Int := 1074

/-- The double nearest to a natural number. -/
def ofNat (n : Nat) : Binary64 := ofScaled false n 1 unitScale

/-- The double nearest to an integer. -/
def ofInt (n : Int) : Binary64 := ofScaled (n < 0) n.natAbs 1 unitScale

/-- The double nearest to `digits * 10 ^ exponent`. Beyond every double and below every double the
power of ten is not worked out. -/
def ofDecimal (negative : Bool) (digits : Nat) (exponent : Int) : Binary64 :=
  if digits = 0 then zero negative
  else if 400 < exponent then infinity negative
  else if exponent * 3 + digits.log2 + 1 < -1080 then zero negative
  else ofScaled negative (digits * Nat.pow 10 exponent.toNat) (Nat.pow 10 (-exponent).toNat) unitScale

/-- The number with the other sign. -/
def neg (x : Binary64) : Binary64 := ⟨x.bits ^^^ 0x8000000000000000⟩

/-- Neither infinite nor a NaN. -/
def isFinite (x : Binary64) : Bool := x.exponentBits ≠ 2047

/-- A magnitude with its sign. -/
def signed (negative : Bool) (n : Nat) : Int := if negative then -(n : Int) else n

/-- The place of a number in the order of doubles, which is that of their bits, with those of the
negative ones reversed and put below. The two zeros have one place. -/
def place (x : Binary64) : UInt64 :=
  if x.bits < 0x8000000000000000 then x.bits + 0x8000000000000000 else -x.bits

/-- Less than; a NaN is less than nothing and nothing is less than it. -/
def lt (x y : Binary64) : Bool := !x.isNaN && !y.isNaN && x.place < y.place

/-- The sum, rounded once. A sum of nothing is positive unless both terms are negative. -/
def add (x y : Binary64) : Binary64 :=
  if x.isNaN || y.isNaN then nan
  else if x.isInfinite && y.isInfinite then
    if x.isNegative = y.isNegative then infinity x.isNegative else nan
  else if x.isInfinite then infinity x.isNegative
  else if y.isInfinite then infinity y.isNegative
  else
    let scale := min x.exponent y.exponent
    let sum := signed x.isNegative (x.mantissa * Nat.pow 2 (x.exponent - scale)) +
      signed y.isNegative (y.mantissa * Nat.pow 2 (y.exponent - scale))
    if sum = 0 then zero (x.isNegative && y.isNegative)
    else ofScaled (sum < 0) sum.natAbs 1 scale

/-- The product, rounded once. -/
def mul (x y : Binary64) : Binary64 :=
  let negative := x.isNegative != y.isNegative
  if x.isNaN || y.isNaN then nan
  else if x.isInfinite || y.isInfinite then
    if x.mantissa = 0 || y.mantissa = 0 then nan else infinity negative
  else ofScaled negative (x.mantissa * y.mantissa) 1 (x.exponent + y.exponent - unitScale)

/-- The quotient, rounded once. -/
def div (x y : Binary64) : Binary64 :=
  let negative := x.isNegative != y.isNegative
  if x.isNaN || y.isNaN || (x.isInfinite && y.isInfinite) then nan
  else if x.isInfinite then infinity negative
  else if y.isInfinite then zero negative
  else if y.mantissa = 0 then if x.mantissa = 0 then nan else infinity negative
  else ofScaled negative x.mantissa y.mantissa (x.exponent - y.exponent + unitScale)

/-- The whole number nearest to a number that is not negative; a half goes up. -/
def roundHalfUp (x : Binary64) : Nat :=
  match x.value with
  | .finite false units => (2 * units + one) / (2 * one)
  | _ => 0

end Binary64
end CallBridge
