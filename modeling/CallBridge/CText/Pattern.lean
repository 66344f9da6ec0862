import CallBridge.CText.Scan

/-!
# Pattern strings

The string-returning call hands out texts that repeat the alphabet, one for each length up to
`maxLength`. A table keeps each text from its first request on, always at the same address, so a
caller may keep the address. Longer requests get the longest text.

Looking up and adding are two steps of their own: a request that finds nothing adds its text only
if no other request has added one in between.
-/

namespace CallBridge.CText

/-- The byte at a place of every pattern text. -/
def patternByte (i : Nat) : UInt8 := UInt8.ofNat (65 + i % 26)

/-- The longest text handed out. -/
def maxLength : Nat := 4096

def pattern (length : Nat) : Bytes := (List.range length).map patternByte

/-- A text handed out: its place among all texts made, its length and its memory. -/
structure PatternText where
  address : Nat
  length : Nat
  memory : Bytes
  deriving DecidableEq, Repr, Inhabited

/-- The texts made so far, in the order of their making. -/
structure PatternTable where
  texts : List PatternText := []
  deriving DecidableEq, Repr, Inhabited

namespace PatternTable

/-- The number of texts made. -/
def size (t : PatternTable) : Nat := t.texts.length

/-- The text of a length, if it was made. -/
def find? (t : PatternTable) (length : Nat) : Option PatternText :=
  t.texts.find? (·.length = length)

/-- Add the text of a length unless it is there; the text in the table is the answer. -/
def add (t : PatternTable) (length : Nat) : PatternText × PatternTable :=
  match t.find? length with
  | some text => (text, t)
  | none =>
    let text := ⟨t.size, length, terminated (pattern length)⟩
    (text, ⟨t.texts ++ [text]⟩)

/-- The text for a request, made on the first request of its capped length. -/
def get (t : PatternTable) (request : Nat) : PatternText × PatternTable :=
  let length := min request maxLength
  match t.find? length with
  | some text => (text, t)
  | none => t.add length

end PatternTable
end CallBridge.CText
