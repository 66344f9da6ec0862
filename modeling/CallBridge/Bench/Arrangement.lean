import CallBridge.Bench.Generator
import CallBridge.RunError
import CallBridge.Text.Number

/-!
# Inputs of a sort

An input holds the numbers from zero on, in ascending, descending or random order. A random order
comes from a seed: from the last position down, each element is exchanged with one at or before it.
-/

namespace CallBridge.Bench

/-- The order of an input. -/
inductive Arrangement where
  | ascending | descending | random
  deriving DecidableEq, Repr, Inhabited

namespace Arrangement

def name : Arrangement → String
  | ascending => "ascending"
  | descending => "descending"
  | random => "random"

def all : List Arrangement := [ascending, descending, random]

/-- The words for each order. -/
def words : List (String × Arrangement) :=
  [("ascending", ascending), ("sorted", ascending), ("descending", descending),
    ("reversed", descending), ("random", random), ("xorshift", random)]

/-- Read an order, with blanks around it and in any case. -/
def read (s : String) : Except RunError Arrangement :=
  let word := Text.lower (Text.trim s)
  match words.find? (·.1 = word) with
  | some (_, a) => .ok a
  | none => .error (.invalidArgument ("unknown input kind " ++ DecodeError.ticked word))

def decode : Decoder Arrangement := .choice (all.map fun a => (a.name, a))

end Arrangement

/-- The longest input: as many elements as there are signed 32-bit numbers from zero on. -/
def maxInput : Nat := Nat.pow 2 31 - 1

/-- The numbers from zero on. -/
def upward (n : Nat) : Array Int32 := (Array.range n).map fun i => Int32.ofNat i

/-- Shuffle the first `n` elements. -/
def shuffle : (n : Nat) → Array Int32 → Generator → Array Int32
  | 0, a, _ => a
  | 1, a, _ => a
  | n + 2, a, g =>
    let (j, g) := g.upTo (n + 1)
    shuffle (n + 1) (a.swapIfInBounds (n + 1) j) g

/-- The input of an order and a length; the seed counts for a random one. -/
def generate (arrangement : Arrangement) (length : Nat) (seed : UInt64) : Array Int32 :=
  let n := min length maxInput
  match arrangement with
  | .ascending => upward n
  | .descending => (upward n).reverse
  | .random => shuffle n (upward n) (.ofSeed seed)

/-- One above the largest length. -/
def lengthLimit : Nat := Nat.pow 2 64

def readLength (s : String) : Except RunError Nat :=
  match Text.readNumber 10 lengthLimit s.toList with
  | .ok n => .ok n
  | .error e => .error (.invalidArgument ("length " ++ DecodeError.ticked s ++ s!": {e.message}"))

def readLengths (s : String) : Except RunError (List Nat) := do
  let lengths ← (Text.items s).mapM readLength
  if lengths.isEmpty then .error (.invalidArgument "no lengths given") else .ok lengths

/-- The lengths where none are given. -/
def standardLengths : List Nat := [0, 8, 16, 32, 64, 128]

end CallBridge.Bench
