import CallBridge.Json.Fault

/-!
# Reading numbers

A number without point and exponent is an integer if it is within bounds. Any other becomes a
double, by one rule for all: of its digits those count that a 64-bit word has room for, and the word
is multiplied or divided by a power of ten that is itself rounded to a double. So the double is near
the number written but not always the nearest to it. A number whose double is infinite is refused.
-/

namespace CallBridge.Json

/-- The value of a decimal digit. -/
def digitValue (c : Char) : Nat := c.toNat - 48

/-- The number that digits stand for. -/
def digitsValue (ds : List Char) : Nat := ds.foldl (fun n c => 10 * n + digitValue c) 0

/-- Digits added to those of a word as long as the word has room for them, and the ones left
over. -/
def gather (n : Nat) : List Char → Nat × List Char
  | [] => (n, [])
  | c :: cs =>
    let m := 10 * n + digitValue c
    if m < Nat.pow 2 64 then gather m cs else (n, c :: cs)

/-- A magnitude: a word times a power of ten. -/
structure Magnitude where
  word : Nat
  exponent : Int
  deriving DecidableEq, Repr

/-- The magnitude of digits before and after the point. A digit before the point that does not count
multiplies by ten; one after the point that counts divides by ten. -/
def Magnitude.ofDigits (whole fraction : List Char) : Magnitude :=
  let (n, dropped) := gather 0 whole
  let (word, ignored) := gather n fraction
  ⟨word, dropped.length - (fraction.length - ignored.length : Nat)⟩

/-- The largest power of ten that is a double. -/
def maxPower : Nat := 308

/-- A power of ten as a double. -/
def tenTo (n : Nat) : Binary64 := .ofDecimal false 1 n

/-- The double of a magnitude; none if it would be infinite. Below the smallest power of ten that
can be divided by at once the word is divided twice, and further below nothing is left of it. -/
def Magnitude.toBinary64? (m : Magnitude) : Option Binary64 :=
  let x := Binary64.ofNat m.word
  if m.word = 0 then some x
  else if maxPower < m.exponent then none
  else if 0 ≤ m.exponent then
    let y := x.mul (tenTo m.exponent.toNat)
    if y.isFinite then some y else none
  else if -maxPower ≤ m.exponent then some (x.div (tenTo m.exponent.natAbs))
  else if -(2 * maxPower) ≤ m.exponent then
    some ((x.div (tenTo maxPower)).div (tenTo (m.exponent + maxPower).natAbs))
  else some (.zero false)

/-- The digits in front of a text, and the rest. -/
def splitDigits (s : List Char) : List Char × List Char :=
  (s.takeWhile Char.isDigit, s.dropWhile Char.isDigit)

/-- One digit or more. -/
def digits : List Char → Reading (List Char × List Char)
  | [] => failBefore .endInValue []
  | c :: s => if c.isDigit then .ok (splitDigits (c :: s)) else failAt .wrongNumber (c :: s)

/-- The digits before the point: a zero stands alone. -/
def wholeDigits : List Char → Reading (List Char × List Char)
  | '0' :: rest =>
    if rest.head?.any Char.isDigit then failAt .wrongNumber rest else .ok (['0'], rest)
  | s => digits s

/-- The digits after the point, if there is a point. -/
def fractionDigits : List Char → Reading (Option (List Char) × List Char)
  | '.' :: s => do
    let (ds, rest) ← digits s
    return (some ds, rest)
  | s => .ok (none, s)

/-- An exponent: its sign and its digits. -/
structure Exponent where
  negative : Bool
  digits : List Char
  deriving DecidableEq, Repr

def exponent : List Char → Reading (Option Exponent × List Char)
  | c :: s =>
    if c = 'e' ∨ c = 'E' then do
      let (negative, s) := match s with
        | '-' :: s => (true, s)
        | '+' :: s => (false, s)
        | s => (false, s)
      let (ds, rest) ← digits s
      return (some ⟨negative, ds⟩, rest)
    else .ok (none, c :: s)
  | [] => .ok (none, [])

/-- The bound of exponents: a number with a larger one is not worked out. -/
def maxExponent : Nat := Nat.pow 2 31 - 1

/-- The value of exponent digits after those of `n`, or the digits that follow the one at which it
passes the bound. -/
def exponentValue (n : Nat) : List Char → Except (List Char) Nat
  | [] => .ok n
  | c :: cs =>
    let m := 10 * n + digitValue c
    if maxExponent < m then .error cs else exponentValue m cs

/-- A double with a sign put before it. -/
def signed (negative : Bool) (x : Binary64) : Json := .float (if negative then x.neg else x)

/-- The value of a number without point and exponent, if it is within bounds. A zero with a minus is
not an integer, since it keeps its sign. -/
def integer? (negative : Bool) (whole : List Char) : Option Json :=
  let n := digitsValue whole
  let i : Int := if negative then -n else n
  if isIntegral i ∧ ¬(negative ∧ n = 0) then some (.int i) else none

/-- The double of a magnitude in front of a rest. -/
def scaled (negative : Bool) (m : Magnitude) (rest : List Char) : Reading (Json × List Char) :=
  match m.toBinary64? with
  | some x => .ok (signed negative x, rest)
  | none => failBefore .tooLarge rest

/-- The value of a number from its parts, in front of a rest. -/
def ofParts (negative : Bool) (whole : List Char) (fraction : Option (List Char))
    (exponent : Option Exponent) (rest : List Char) : Reading (Json × List Char) :=
  let m := Magnitude.ofDigits whole (fraction.getD [])
  match exponent with
  | some e =>
    match exponentValue 0 e.digits with
    | .ok n =>
      let shift : Int := if e.negative then -n else n
      scaled negative ⟨m.word, m.exponent + shift⟩ rest
    | .error ds =>
      if m.word ≠ 0 ∧ ¬e.negative then failBefore .tooLarge (ds ++ rest)
      else .ok (signed negative (.zero false), rest)
  | none =>
    match if fraction.isSome then none else integer? negative whole with
    | some j => .ok (j, rest)
    | none => scaled negative m rest

/-- A number after its sign. -/
def number (negative : Bool) (s : List Char) : Reading (Json × List Char) := do
  let (whole, s) ← wholeDigits s
  let (fraction, s) ← fractionDigits s
  let (exponent, s) ← exponent s
  ofParts negative whole fraction exponent s

end CallBridge.Json
