/-!
# Terminated text

Text behind a C boundary is a run of bytes ended by a NUL, found through an address that may be
null. Memory is the list of bytes from that address on. A scan reads one byte after the other until
it meets a NUL or its bound.
-/

namespace CallBridge.CText

/-- A byte string. -/
abbrev Bytes := List UInt8

/-- The number of bytes before the first NUL, or of all bytes if there is none. -/
def length (s : Bytes) : Nat :=
  (s.takeWhile (· ≠ 0)).length

/-- Scan at most `bound` bytes: how many stand before the first NUL, and whether one was met. -/
def scanWithin : (bound : Nat) → Bytes → Nat × Bool
  | 0, _ => (0, false)
  | _ + 1, [] => (0, false)
  | bound + 1, b :: memory =>
    if b = 0 then (0, true)
    else
      let (n, met) := scanWithin bound memory
      (n + 1, met)

/-- Scan until a NUL is met: how many bytes stand before it. -/
def scanToEnd : Bytes → Nat × Bool
  | [] => (0, false)
  | b :: memory =>
    if b = 0 then (0, true)
    else
      let (n, met) := scanToEnd memory
      (n + 1, met)

/-- Scan the memory behind an address, if there is one, up to a bound, if there is one. -/
def scan (memory : Option Bytes) (bound : Option Nat) : Nat × Bool :=
  match memory, bound with
  | none, _ => (0, false)
  | some memory, some bound => scanWithin bound memory
  | some memory, none => scanToEnd memory

/-- The length a C caller is told, at most what a signed 64-bit number holds; zero for null. -/
def reportedLength (memory : Option Bytes) : Nat :=
  min (scan memory none).1 (Nat.pow 2 63 - 1)

/-- The memory of a byte string with its terminator. -/
def terminated (s : Bytes) : Bytes := s ++ [0]

/-- The length asked for by a C caller; a negative one asks for nothing. -/
def requestedLength (n : Int32) : Nat := n.toInt.toNat

end CallBridge.CText
