/-!
# SHA-256

The digest of a byte string. The message is padded to blocks of 64 bytes; each block is extended to
a schedule of 64 words and mixed into a state of eight words.
-/

namespace CallBridge.Sha256

/-- The round constants: the first 32 bits of the fractional parts of the cube roots of the first 64
primes. -/
def constants : List UInt32 :=
  [0x428a2f98, 0x71374491, 0xb5c0fbcf, 0xe9b5dba5, 0x3956c25b, 0x59f111f1, 0x923f82a4, 0xab1c5ed5,
    0xd807aa98, 0x12835b01, 0x243185be, 0x550c7dc3, 0x72be5d74, 0x80deb1fe, 0x9bdc06a7, 0xc19bf174,
    0xe49b69c1, 0xefbe4786, 0x0fc19dc6, 0x240ca1cc, 0x2de92c6f, 0x4a7484aa, 0x5cb0a9dc, 0x76f988da,
    0x983e5152, 0xa831c66d, 0xb00327c8, 0xbf597fc7, 0xc6e00bf3, 0xd5a79147, 0x06ca6351, 0x14292967,
    0x27b70a85, 0x2e1b2138, 0x4d2c6dfc, 0x53380d13, 0x650a7354, 0x766a0abb, 0x81c2c92e, 0x92722c85,
    0xa2bfe8a1, 0xa81a664b, 0xc24b8b70, 0xc76c51a3, 0xd192e819, 0xd6990624, 0xf40e3585, 0x106aa070,
    0x19a4c116, 0x1e376c08, 0x2748774c, 0x34b0bcb5, 0x391c0cb3, 0x4ed8aa4a, 0x5b9cca4f, 0x682e6ff3,
    0x748f82ee, 0x78a5636f, 0x84c87814, 0x8cc70208, 0x90befffa, 0xa4506ceb, 0xbef9a3f7, 0xc67178f2]

/-- The state: eight words. -/
structure State where
  a : UInt32
  b : UInt32
  c : UInt32
  d : UInt32
  e : UInt32
  f : UInt32
  g : UInt32
  h : UInt32
  deriving DecidableEq, Repr

namespace State

/-- The state to begin with: the fractional parts of the square roots of the first eight primes. -/
def initial : State :=
  ⟨0x6a09e667, 0xbb67ae85, 0x3c6ef372, 0xa54ff53a, 0x510e527f, 0x9b05688c, 0x1f83d9ab, 0x5be0cd19⟩

def words (s : State) : List UInt32 := [s.a, s.b, s.c, s.d, s.e, s.f, s.g, s.h]

def add (s t : State) : State :=
  ⟨s.a + t.a, s.b + t.b, s.c + t.c, s.d + t.d, s.e + t.e, s.f + t.f, s.g + t.g, s.h + t.h⟩

end State

/-- Rotate to the right by 1 to 31 bits. -/
def rotate (x n : UInt32) : UInt32 := (x >>> n) ||| (x <<< (32 - n))

/-- One round with its constant and its word of the schedule. -/
def round (s : State) (constant word : UInt32) : State :=
  let mixed := rotate s.e 6 ^^^ rotate s.e 11 ^^^ rotate s.e 25
  let chosen := (s.e &&& s.f) ^^^ (~~~s.e &&& s.g)
  let first := s.h + mixed + chosen + constant + word
  let spread := rotate s.a 2 ^^^ rotate s.a 13 ^^^ rotate s.a 22
  let majority := (s.a &&& s.b) ^^^ (s.a &&& s.c) ^^^ (s.b &&& s.c)
  ⟨first + (spread + majority), s.a, s.b, s.c, s.d + first, s.e, s.f, s.g⟩

/-- The next word of a schedule. -/
def nextWord (w : Array UInt32) : UInt32 :=
  let word (back : Nat) := w.getD (w.size - back) 0
  let x := word 15
  let y := word 2
  word 16 + (rotate x 7 ^^^ rotate x 18 ^^^ (x >>> 3)) + word 7 +
    (rotate y 17 ^^^ rotate y 19 ^^^ (y >>> 10))

/-- Extend a schedule by `n` words. -/
def extend : (n : Nat) → Array UInt32 → Array UInt32
  | 0, w => w
  | n + 1, w => extend n (w.push (nextWord w))

/-- Mix a block of sixteen words into a state. -/
def compress (s : State) (block : Array UInt32) : State :=
  let schedule := (extend 48 block).toList
  s.add ((constants.zip schedule).foldl (fun s (constant, word) => round s constant word) s)

/-- The bytes of a number, the highest first. -/
def bigEndian : (width : Nat) → Nat → List UInt8
  | 0, _ => []
  | width + 1, n => UInt8.ofNat (n / Nat.pow 256 width) :: bigEndian width n

/-- The padding after a message of `length` bytes: a one bit, zeros, and the length in bits. -/
def padding (length : Nat) : List UInt8 :=
  0x80 :: (List.replicate ((119 - length % 64) % 64) 0 ++ bigEndian 8 (8 * length))

/-- The word of four bytes. -/
def wordOf (a b c d : UInt8) : UInt32 :=
  (a.toUInt32 <<< 24) ||| (b.toUInt32 <<< 16) ||| (c.toUInt32 <<< 8) ||| d.toUInt32

/-- Mix bytes into a state, a block after the other; `block` holds the words since the last one. -/
def absorb (s : State) (block : Array UInt32) : List UInt8 → State
  | a :: b :: c :: d :: rest =>
    let block := block.push (wordOf a b c d)
    if block.size = 16 then absorb (compress s block) #[] rest else absorb s block rest
  | _ => s

/-- The 32 bytes of the digest. -/
def digest (message : List UInt8) : List UInt8 :=
  (absorb .initial #[] (message ++ padding message.length)).words.flatMap fun w =>
    bigEndian 4 w.toNat

/-- The two digits of a byte. -/
def hexByte (b : UInt8) : List Char :=
  [Nat.digitChar (b.toNat / 16), Nat.digitChar (b.toNat % 16)]

/-- The digest in hexadecimal digits. -/
def hex (message : List UInt8) : String :=
  String.ofList ((digest message).flatMap hexByte)

end CallBridge.Sha256
