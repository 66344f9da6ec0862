import CallBridge.Decimal.Shortest

/-!
# Layout of decimals

Two ways to write a double: with the fewest digits that read back, in place for exponents within a
range and with an exponent otherwise; and with a fixed number of places, rounded from the exact
value with a half to the even digit.
-/

namespace CallBridge.Decimal

/-- From which to which exponent of the first digit a number is written in place. -/
structure Layout where
  lowest : Int
  highest : Int
  deriving Repr

/-- The digits of a natural number. -/
def digits (n : Nat) : List Char := Nat.toDigits 10 n

/-- An integer with its sign. -/
def signedDigits (n : Int) : List Char :=
  if n < 0 then '-' :: digits n.natAbs else digits n.natAbs

/-- Digits written in place: `first` is the exponent of the first one. -/
def inPlace (ds : List Char) (first : Int) : List Char :=
  if first < 0 then
    '0' :: '.' :: (List.replicate (-first - 1).toNat '0' ++ ds)
  else
    let whole := first.toNat + 1
    let padded := ds ++ List.replicate (whole - ds.length) '0'
    padded.take whole ++ '.' :: (if ds.length ≤ whole then ['0'] else padded.drop whole)

/-- Digits written with an exponent, whose sign is always there. -/
def withExponent (ds : List Char) (first : Int) : List Char :=
  let mantissa := match ds with
    | [] => []
    | [d] => [d]
    | d :: rest => d :: '.' :: rest
  mantissa ++ 'e' :: (if first < 0 then '-' else '+') :: digits first.natAbs

/-- A finite double with the fewest digits that read back. -/
def Layout.render (layout : Layout) (negative : Bool) (units : Nat) : List Char :=
  let body :=
    if units = 0 then ['0', '.', '0']
    else
      let d := (shortest units).trim
      let ds := digits d.digits
      let first := d.exponent + (ds.length : Int) - 1
      if layout.lowest ≤ first ∧ first ≤ layout.highest then inPlace ds first
      else withExponent ds first
  if negative then '-' :: body else body

/-- A double with a fixed number of places. -/
def fixed (places : Nat) (x : Binary64) : String :=
  let signed (negative : Bool) (s : String) := if negative then "-" ++ s else s
  match x.value with
  | .nan => "NaN"
  | .infinite negative => signed negative "inf"
  | .finite negative units =>
    let n := roundHalfEven (units * Nat.pow 10 places) Binary64.one
    let ds := digits n
    let padded := List.replicate (places + 1 - ds.length) '0' ++ ds
    let whole := padded.take (padded.length - places)
    let fraction := padded.drop (padded.length - places)
    signed negative (String.ofList (if places = 0 then whole else whole ++ '.' :: fraction))

end CallBridge.Decimal
