import CallBridge.Json.Number

/-!
# Reading JSON

A strict reader: no blanks but space, tab, line feed and return, no comments, no trailing commas,
no raw controls in strings, no half surrogate pairs, no number beyond the largest double and no
deeper nesting than allowed. Each function takes what it reads off the front of the text; the first
fault in the order of the text is the one reported.
-/

namespace CallBridge.Json

/-- Reads a value off the front of a text and gives it with the rest. -/
abbrev Reader := List Char → Reading (Json × List Char)

/-- The blanks of the grammar. -/
def isBlank (c : Char) : Bool := c = ' ' || c = '\t' || c = '\n' || c = '\r'

def skipBlanks (s : List Char) : List Char := s.dropWhile isBlank

/-- The value of a hexadecimal digit of either case. -/
def hexValue (c : Char) : Option Nat :=
  if '0' ≤ c ∧ c ≤ '9' then some (c.toNat - 48)
  else if 'a' ≤ c ∧ c ≤ 'f' then some (c.toNat - 87)
  else if 'A' ≤ c ∧ c ≤ 'F' then some (c.toNat - 55)
  else none

/-- The value of four hexadecimal digits. -/
def hexUnit (a b c d : Char) : Option Nat := do
  return (((← hexValue a) * 16 + (← hexValue b)) * 16 + (← hexValue c)) * 16 + (← hexValue d)

/-- The first unit of a surrogate pair. -/
def isHighSurrogate (n : Nat) : Bool := 0xD800 ≤ n && n < 0xDC00

/-- The second unit of a surrogate pair. -/
def isLowSurrogate (n : Nat) : Bool := 0xDC00 ≤ n && n < 0xE000

/-- The character an escape by one letter stands for. -/
def shortEscape (c : Char) : Option Char :=
  if c = '"' ∨ c = '\\' ∨ c = '/' then some c
  else if c = 'b' then some '\x08'
  else if c = 'f' then some '\x0c'
  else if c = 'n' then some '\n'
  else if c = 'r' then some '\r'
  else if c = 't' then some '\t'
  else none

/-- The fault of an escape by number whose four bytes are no hexadecimal digits or are not there. -/
def failInHex {α : Type} (s : List Char) : Reading α :=
  if width s < 4 then failBefore .endInString [] else failWithin 4 .wrongEscape s

/-- The fault of a half surrogate pair that no other half follows. -/
def failInPair {α : Type} : List Char → Reading α
  | [] | ['\\'] => failBefore .endInString []
  | '\\' :: 'u' :: s => failInHex s
  | '\\' :: s => failAt .endOfEscape s
  | s => failAt .endOfEscape s

/-- The fault of an escape that stands for nothing. -/
def failInEscape {α : Type} : List Char → Reading α
  | [] => failBefore .endInString []
  | 'u' :: s => failInHex s
  | s => failAt .wrongEscape s

/-- A string after its opening quote; `read` holds the characters read so far, the last first. -/
def stringTail (read : List Char) : List Char → Reading (String × List Char)
  | [] => failBefore .endInString []
  | '"' :: rest => .ok (String.ofList read.reverse, rest)
  | '\\' :: 'u' :: a :: b :: c :: d :: rest =>
    match hexUnit a b c d with
    | none => failInHex (a :: b :: c :: d :: rest)
    | some n =>
      if isHighSurrogate n then
        match rest with
        | '\\' :: 'u' :: a :: b :: c :: d :: rest =>
          match hexUnit a b c d with
          | none => failInHex (a :: b :: c :: d :: rest)
          | some m =>
            if isLowSurrogate m then
              stringTail (Char.ofNat (0x10000 + (n - 0xD800) * 0x400 + (m - 0xDC00)) :: read) rest
            else failBefore .loneSurrogate rest
        | rest => failInPair rest
      else if isLowSurrogate n then failBefore .loneSurrogate rest
      else stringTail (Char.ofNat n :: read) rest
  | '\\' :: c :: rest =>
    match shortEscape c with
    | none => failInEscape (c :: rest)
    | some c => stringTail (c :: read) rest
  | ['\\'] => failInEscape []
  | c :: rest =>
    if c.toNat < 32 then failAt .controlInString (c :: rest) else stringTail (c :: read) rest

/-- The letters of a word, of which the first is read already. -/
def word : List Char → List Char → Reading (List Char)
  | [], s => .ok s
  | _ :: _, [] => failBefore .endInValue []
  | expected :: more, c :: s =>
    if c = expected then word more s else failAt .wrongWord (c :: s)

/-- A value that holds no other. -/
def scalar : Reader
  | [] => failBefore .endInValue []
  | 'n' :: s => do return (.null, ← word ['u', 'l', 'l'] s)
  | 't' :: s => do return (.bool true, ← word ['r', 'u', 'e'] s)
  | 'f' :: s => do return (.bool false, ← word ['a', 'l', 's', 'e'] s)
  | '"' :: s => do
    let (text, rest) ← stringTail [] s
    return (.str text, rest)
  | '-' :: s => number true s
  | c :: s => if c.isDigit then number false (c :: s) else failAt .noValue (c :: s)

/-- One item or more up to the closing bracket. `room` bounds the number of items. -/
def items (item : Reader) : (room : Nat) → List Char → Reading (List Json × List Char)
  | 0, s => failBefore .endInList s
  | room + 1, s => do
    let (j, s) ← item s
    match skipBlanks s with
    | [] => failBefore .endInList []
    | ']' :: s => return ([j], s)
    | ',' :: s =>
      match skipBlanks s with
      | [] => failBefore .endInValue []
      | ']' :: s => failAt .trailingComma (']' :: s)
      | s =>
        let (rest, s) ← items item room s
        return (j :: rest, s)
    | s => failAt .noCommaInList s

/-- The colon after a key. -/
def colon (s : List Char) : Reading (List Char) :=
  match skipBlanks s with
  | [] => failBefore .endInObject []
  | ':' :: s => .ok s
  | s => failAt .noColon s

/-- A key after its opening quote, with its value. -/
def member (item : Reader) (s : List Char) : Reading ((String × Json) × List Char) := do
  let (key, s) ← stringTail [] s
  let s ← colon s
  let (value, s) ← item s
  return ((key, value), s)

/-- One member or more up to the closing brace, the first key after its opening quote. `room` bounds
the number of members. -/
def members (item : Reader) : (room : Nat) → List Char → Reading (Members × List Char)
  | 0, s => failBefore .endInObject s
  | room + 1, s => do
    let (m, s) ← member item s
    match skipBlanks s with
    | [] => failBefore .endInObject []
    | '}' :: s => return ([m], s)
    | ',' :: s =>
      match skipBlanks s with
      | [] => failBefore .endInValue []
      | '}' :: s => failAt .trailingComma ('}' :: s)
      | '"' :: s =>
        let (rest, s) ← members item room s
        return (m :: rest, s)
      | s => failAt .keyWithoutQuote s
    | s => failAt .noCommaInObject s

/-- The rest of an array after its opening bracket. -/
def arrayTail (item : Reader) (s : List Char) : Reading (Json × List Char) :=
  match skipBlanks s with
  | [] => failBefore .endInList []
  | ']' :: rest => .ok (.array [], rest)
  | s => do
    let (js, rest) ← items item s.length s
    return (.array js, rest)

/-- The rest of an object after its opening brace. -/
def objectTail (item : Reader) (s : List Char) : Reading (Json × List Char) :=
  match skipBlanks s with
  | [] => failBefore .endInObject []
  | '}' :: rest => .ok (.object [], rest)
  | '"' :: s => do
    let (ms, rest) ← members item s.length s
    return (.object ms.sort, rest)
  | s => failAt .keyWithoutQuote s

/-- A value after blanks, nested at most `depth` deep. -/
def value : (depth : Nat) → Reader
  | 0, s =>
    match skipBlanks s with
    | '[' :: s => failAt .tooDeep ('[' :: s)
    | '{' :: s => failAt .tooDeep ('{' :: s)
    | s => scalar s
  | depth + 1, s =>
    match skipBlanks s with
    | '[' :: rest => arrayTail (value depth) rest
    | '{' :: rest => objectTail (value depth) rest
    | s => scalar s

/-- The deepest nesting that is read. -/
def maxDepth : Nat := 127

/-- A value with nothing but blanks after it. -/
def document (depth : Nat) (s : List Char) : Reading Json := do
  let (j, rest) ← value depth s
  match skipBlanks rest with
  | [] => return j
  | rest => failAt .trailingCharacters rest

/-- The value a text holds, nested at most `depth` deep. -/
def ofChars (depth : Nat) (s : List Char) : Except ReadError Json :=
  (document depth s).mapError (·.locate s)

/-- The value a text holds. -/
def read (s : String) : Except ReadError Json := ofChars maxDepth s.toList

end CallBridge.Json
