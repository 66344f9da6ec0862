import CallBridge.Json

/-!
# Faults of a JSON text

Why a text is not JSON and where that was noticed. A reader knows only the rest of its text, so a
fault counts the bytes that are left after its place; `Fault.locate` turns this into a line and a
column of the text.
-/

namespace CallBridge.Json

/-- Why a text is not JSON. -/
inductive Cause where
  | endInList
  | endInObject
  | endInString
  | endInValue
  | noColon
  | noCommaInList
  | noCommaInObject
  | wrongWord
  | noValue
  | wrongEscape
  | wrongNumber
  | tooLarge
  | controlInString
  | keyWithoutQuote
  | loneSurrogate
  | endOfEscape
  | trailingComma
  | trailingCharacters
  | tooDeep
  deriving DecidableEq, Repr

/-- The cause in words. -/
def Cause.message : Cause → String
  | endInList => "EOF while parsing a list"
  | endInObject => "EOF while parsing an object"
  | endInString => "EOF while parsing a string"
  | endInValue => "EOF while parsing a value"
  | noColon => "expected `:`"
  | noCommaInList => "expected `,` or `]`"
  | noCommaInObject => "expected `,` or `\x7d`"
  | wrongWord => "expected ident"
  | noValue => "expected value"
  | wrongEscape => "invalid escape"
  | wrongNumber => "invalid number"
  | tooLarge => "number out of range"
  | controlInString => "control character (\\u0000-\\u001F) found while parsing a string"
  | keyWithoutQuote => "key must be a string"
  | loneSurrogate => "lone leading surrogate in hex escape"
  | endOfEscape => "unexpected end of hex escape"
  | trailingComma => "trailing comma"
  | trailingCharacters => "trailing characters"
  | tooDeep => "recursion limit exceeded"

/-- The number of bytes of a text. -/
def width (s : List Char) : Nat := s.foldr (fun c bytes => c.utf8Size + bytes) 0

/-- A cause, and how many bytes are left after the place it was noticed at. -/
structure Fault where
  cause : Cause
  left : Nat
  deriving DecidableEq, Repr

/-- What a reader gives, unless there is a fault. -/
abbrev Reading := Except Fault

/-- A fault noticed in front of a rest. -/
def failBefore {α : Type} (cause : Cause) (rest : List Char) : Reading α :=
  .error ⟨cause, width rest⟩

/-- A fault noticed a number of bytes into a rest, or at its end if it is shorter. -/
def failWithin {α : Type} (bytes : Nat) (cause : Cause) (rest : List Char) : Reading α :=
  .error ⟨cause, width rest - bytes⟩

/-- A fault noticed at the first byte of a rest. -/
def failAt {α : Type} (cause : Cause) (rest : List Char) : Reading α :=
  failWithin 1 cause rest

/-- A cause with the line, from one on, and the number of bytes of this line up to its place. -/
structure ReadError where
  cause : Cause
  line : Nat
  column : Nat
  deriving DecidableEq, Repr

/-- The error in words. -/
def ReadError.message (e : ReadError) : String :=
  s!"{e.cause.message} at line {e.line} column {e.column}"

/-- The place of a fault in the text it was noticed in. -/
def Fault.locate (f : Fault) (text : List Char) : ReadError :=
  let before := (String.ofList text).toUTF8.toList.take (width text - f.left)
  ⟨f.cause, before.count 10 + 1, (before.reverse.takeWhile (· ≠ 10)).length⟩

end CallBridge.Json
