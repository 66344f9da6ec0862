/-!
# Reading whole numbers

A number is an optional plus sign and one digit or more of its radix, and has to be below a limit.
Reading stops at the first digit that is none or that carries the number over the limit.
-/

namespace CallBridge.Text

/-- Why a text is not a number. -/
inductive NumberError where
  | empty
  | invalidDigit
  | tooLarge
  deriving DecidableEq, Repr

/-- The error in words. -/
def NumberError.message : NumberError → String
  | .empty => "cannot parse integer from empty string"
  | .invalidDigit => "invalid digit found in string"
  | .tooLarge => "number too large to fit in target type"

def NumberError.name : NumberError → String
  | .empty => "Empty"
  | .invalidDigit => "InvalidDigit"
  | .tooLarge => "PosOverflow"

/-- The value of a digit of a radix up to sixteen, of either case. -/
def digitValue? (radix : Nat) (c : Char) : Option Nat :=
  let n := c.toNat
  let v := if 48 ≤ n ∧ n ≤ 57 then some (n - 48)
    else if 97 ≤ n ∧ n ≤ 102 then some (n - 87)
    else if 65 ≤ n ∧ n ≤ 70 then some (n - 55)
    else none
  v.filter (· < radix)

/-- Read digits after a number read so far. -/
def readDigits (radix limit : Nat) (n : Nat) : List Char → Except NumberError Nat
  | [] => .ok n
  | c :: rest =>
    match digitValue? radix c with
    | none => .error .invalidDigit
    | some d =>
      if radix * n + d < limit then readDigits radix limit (radix * n + d) rest
      else .error .tooLarge

/-- Read a number below a limit. -/
def readNumber (radix limit : Nat) : List Char → Except NumberError Nat
  | [] => .error .empty
  | ['+'] => .error .invalidDigit
  | '+' :: s => readDigits radix limit 0 s
  | s => readDigits radix limit 0 s

/-- One above the largest unsigned 64-bit number. -/
def wordLimit : Nat := Nat.pow 2 64

/-- Read a decimal unsigned 64-bit number. -/
def readWord (s : List Char) : Except NumberError Nat := readNumber 10 wordLimit s

/-- A number with at least `width` decimal digits. -/
def padded (width n : Nat) : String :=
  let digits := Nat.toDigits 10 n
  String.ofList (List.replicate (width - digits.length) '0' ++ digits)

/-- A number with hexadecimal digits in lower case, marked as such. -/
def hex (n : Nat) : String := "0x" ++ String.ofList (Nat.toDigits 16 n)

end CallBridge.Text
