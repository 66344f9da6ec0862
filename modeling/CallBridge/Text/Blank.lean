/-!
# Blanks, lines and items

What counts as blank around a word, how a text falls into lines and how a list argument falls into
items.
-/

namespace CallBridge.Text

/-- A character with the Unicode property White_Space. -/
def isBlank (c : Char) : Bool :=
  let n := c.toNat
  (9 ≤ n && n ≤ 13) || n = 0x20 || n = 0x85 || n = 0xA0 || n = 0x1680 ||
    (0x2000 ≤ n && n ≤ 0x200A) || n = 0x2028 || n = 0x2029 || n = 0x202F || n = 0x205F ||
    n = 0x3000

/-- Characters without the blanks at both ends. -/
def trimChars (s : List Char) : List Char :=
  ((s.dropWhile isBlank).reverse.dropWhile isBlank).reverse

/-- A text without the blanks at both ends. -/
def trim (s : String) : String := String.ofList (trimChars s.toList)

/-- A text with its ASCII letters in lower case; all others stay. -/
def lower (s : String) : String := String.ofList (s.toList.map Char.toLower)

/-- The parts between the occurrences of a separator: one more than there are separators. -/
def splitChars (separator : Char) (s : List Char) : List (List Char) :=
  s.foldr (fun c parts =>
    if c = separator then [] :: parts
    else match parts with
      | part :: rest => (c :: part) :: rest
      | [] => [[c]]) [[]]

/-- The items of a list argument: the parts between commas, trimmed, without the blank ones. -/
def items (s : String) : List String :=
  ((splitChars ',' s.toList).map trimChars).filter (!·.isEmpty) |>.map String.ofList

/-- A line without the return at its end. -/
def dropReturn (line : List Char) : List Char :=
  match line.reverse with
  | '\r' :: rest => rest.reverse
  | _ => line

/-- The lines of a text. A line feed ends a line; what stands after the last one is a line unless
nothing does. A return before a line feed belongs to the line's end. -/
def lines (s : String) : List (List Char) :=
  let parts := splitChars '\n' s.toList
  let ended := parts.dropLast.map dropReturn
  match parts.getLast? with
  | some [] | none => ended
  | some last => ended ++ [last]

/-- Lines as one text, each of them ended by a line feed. -/
def ofLines (ls : List String) : String := String.join (ls.map (· ++ "\n"))

end CallBridge.Text
