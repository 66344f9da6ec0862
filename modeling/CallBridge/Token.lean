/-!
# Element tokens

A token names one element of a buffer to the far side of a call boundary. It is the element's
address: neighbouring elements are `stride` bytes apart, and managed code sees the same 64 bits as
a signed number.
-/

namespace CallBridge

/-- The address of one buffer element. -/
structure Token where
  address : UInt64
  deriving DecidableEq, Repr, Inhabited

namespace Token

/-- The number of bytes an element takes. -/
def stride : Nat := 4

/-- The token of the element at a position of a buffer that starts at `base`. -/
def ofPosition (base : UInt64) (position : Nat) : Token :=
  ⟨base + UInt64.ofNat (stride * position)⟩

/-- The token as managed code sees it, a signed number of the same bits. -/
def signed (t : Token) : Int64 := t.address.toInt64

instance : Ord Token where
  compare a b := compare a.address b.address

instance : Max Token where
  max a b := if b.address < a.address then a else b

/-- The token as diagnostic text. -/
def render (t : Token) : String := s!"ElementToken({t.address.toNat})"

/-- The signed view keeps every bit. -/
theorem toUInt64_signed (t : Token) : t.signed.toUInt64 = t.address := by
  simp [signed]

end Token
end CallBridge
