/-!
# A generator of numbers

A sequence of 64-bit numbers from a seed. Three exclusive-or shifts lead from one state to the next,
and the number is the state times an odd constant. Each of these is one to one, and zero is only
reached from zero, so a generator that does not start there never gives zero.
-/

namespace CallBridge.Bench

/-- A generator by its state. -/
structure Generator where
  state : UInt64
  deriving DecidableEq, Repr, Inhabited

namespace Generator

/-- The seed where none is given. -/
def standardSeed : UInt64 := 0xDEADBEEF

/-- The generator of a seed; zero would never be left, so the standard seed stands in for it. -/
def ofSeed (seed : UInt64) : Generator := ⟨if seed = 0 then standardSeed else seed⟩

/-- The state after a state. -/
def step (x : UInt64) : UInt64 :=
  let x := x ^^^ (x >>> 12)
  let x := x ^^^ (x <<< 25)
  x ^^^ (x >>> 27)

/-- The number of a state. -/
def output (x : UInt64) : UInt64 := x * 0x2545F4914F6CDD1D

/-- The next number. -/
def next (g : Generator) : UInt64 × Generator :=
  let state := step g.state
  (output state, ⟨state⟩)

/-- The next number brought into the range from zero to `n`. -/
def upTo (g : Generator) (n : Nat) : Fin (n + 1) × Generator :=
  let (x, g) := g.next
  (⟨x.toNat % (n + 1), Nat.mod_lt _ n.succ_pos⟩, g)

end Generator
end CallBridge.Bench
