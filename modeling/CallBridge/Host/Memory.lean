/-!
# Memory

What is kept in one piece needs memory for all of it at once. A piece that has more bytes than there
are addresses cannot even be asked for; one that the host has no room for is asked for and refused.
A process that does not get its memory breaks down.
-/

namespace CallBridge

/-- Why there is no memory. -/
inductive MemoryError where
  | unaddressable
  | refused (bytes : Nat)
  deriving DecidableEq, Repr

/-- The error in words. -/
def MemoryError.message : MemoryError → String
  | unaddressable => "capacity overflow"
  | refused bytes => s!"memory allocation of {bytes} bytes failed"

namespace Memory

/-- The most bytes a piece can be asked for with: the largest signed 64-bit number. -/
def addressable : Nat := Nat.pow 2 63 - 1

/-- Ask for a piece of memory where there is room for so many bytes. -/
def reserve (room bytes : Nat) : Except MemoryError Unit :=
  if addressable < bytes then .error .unaddressable
  else if room < bytes then .error (.refused bytes)
  else .ok ()

/-- A piece that has an address and fits is granted, and no other. -/
theorem reserve_eq_ok_iff {room bytes : Nat} :
    reserve room bytes = .ok () ↔ bytes ≤ addressable ∧ bytes ≤ room := by
  unfold reserve
  split
  · simp; omega
  · split
    · simp; omega
    · simp; omega

end Memory
end CallBridge
