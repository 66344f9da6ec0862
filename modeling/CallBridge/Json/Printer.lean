import CallBridge.Decimal.Layout
import CallBridge.Json

/-!
# Writing JSON

Two forms: `compact` without blanks and `pretty` with an indent of two. Strings escape the quote,
the backslash and the controls below U+0020, nothing else, so no written string holds a line break.
Doubles are written with the fewest digits that read back; one that is not finite is written null.
-/

namespace CallBridge.Json

/-- Doubles are written in place from five zeros after the point to sixteen digits before it. -/
def numbers : Decimal.Layout := ⟨-5, 15⟩

/-- One hexadecimal digit in lower case. -/
def hexDigit (n : Nat) : Char := Nat.digitChar (n % 16)

/-- A character of a string, escaped if it has to be. -/
def escape (c : Char) : List Char :=
  if c = '"' then ['\\', '"']
  else if c = '\\' then ['\\', '\\']
  else if c = '\x08' then ['\\', 'b']
  else if c = '\x0c' then ['\\', 'f']
  else if c = '\n' then ['\\', 'n']
  else if c = '\r' then ['\\', 'r']
  else if c = '\t' then ['\\', 't']
  else if c.toNat < 32 then ['\\', 'u', '0', '0', hexDigit (c.toNat / 16), hexDigit c.toNat]
  else [c]

def quoted (s : String) : List Char :=
  '"' :: (s.toList.flatMap escape ++ ['"'])

/-- A double; `null` if it is not finite. -/
def floatChars (x : Binary64) : List Char :=
  match x.value with
  | .finite negative units => numbers.render negative units
  | _ => ['n', 'u', 'l', 'l']

/-- A value that holds no other. -/
def scalarChars : Json → List Char
  | .bool true => ['t', 'r', 'u', 'e']
  | .bool false => ['f', 'a', 'l', 's', 'e']
  | .int n => Decimal.signedDigits n
  | .float x => floatChars x
  | .str s => quoted s
  | _ => ['n', 'u', 'l', 'l']

mutual

/-- A value without blanks. -/
def compactChars : Json → List Char
  | .array items => '[' :: (compactItems items ++ [']'])
  | .object members => '{' :: (compactMembers members ++ ['}'])
  | j => scalarChars j

/-- Items of an array, separated by commas. -/
def compactItems : List Json → List Char
  | [] => []
  | [j] => compactChars j
  | j :: rest => compactChars j ++ ',' :: compactItems rest

/-- Members of an object, separated by commas. -/
def compactMembers : List (String × Json) → List Char
  | [] => []
  | [(k, v)] => quoted k ++ ':' :: compactChars v
  | (k, v) :: rest => quoted k ++ ':' :: (compactChars v ++ ',' :: compactMembers rest)

end

/-- A new line with the blanks of a level of nesting. -/
def newline (level : Nat) : List Char := '\n' :: List.replicate (2 * level) ' '

mutual

/-- A value at a level of nesting, each item and member on a line of its own. -/
def prettyChars (level : Nat) : Json → List Char
  | .array [] => ['[', ']']
  | .array items => '[' :: (prettyItems (level + 1) items ++ newline level ++ [']'])
  | .object [] => ['{', '}']
  | .object members => '{' :: (prettyMembers (level + 1) members ++ newline level ++ ['}'])
  | j => scalarChars j

/-- Items of an array, each on its line. -/
def prettyItems (level : Nat) : List Json → List Char
  | [] => []
  | [j] => newline level ++ prettyChars level j
  | j :: rest => newline level ++ (prettyChars level j ++ ',' :: prettyItems level rest)

/-- Members of an object, each on its line. -/
def prettyMembers (level : Nat) : List (String × Json) → List Char
  | [] => []
  | [(k, v)] => newline level ++ (quoted k ++ ':' :: ' ' :: prettyChars level v)
  | (k, v) :: rest =>
    newline level ++ (quoted k ++ ':' :: ' ' :: (prettyChars level v ++
      ',' :: prettyMembers level rest))

end

/-- The text of a value on one line. -/
def compact (j : Json) : String := String.ofList (compactChars j)

/-- The text of a value over several lines. -/
def pretty (j : Json) : String := String.ofList (prettyChars 0 j)

end CallBridge.Json
