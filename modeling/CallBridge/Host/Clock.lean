import CallBridge.Calendar

/-!
# Clocks

The wall clock tells an instant in seconds and nanoseconds since the beginning of 1970, possibly
before it. It can be set at any time, so one reading tells nothing of the next. The steady clock is
only read to tell how long something took; each reading of it is later than the one before by the
next of its ticks, which come round again.
-/

namespace CallBridge

/-- An instant of the wall clock. -/
structure WallTime where
  seconds : Int
  nanoseconds : Nat := 0
  deriving DecidableEq, Repr, Inhabited

namespace WallTime

/-- The seconds and nanoseconds since 1970, none before it. -/
def sinceEpoch (t : WallTime) : Nat × Nat :=
  if t.seconds < 0 then (0, 0) else (t.seconds.toNat, t.nanoseconds)

/-- The milliseconds since 1970. -/
def milliseconds (t : WallTime) : Nat :=
  t.sinceEpoch.1 * 1000 + t.sinceEpoch.2 / 1000000

/-- The milliseconds since 1970 as an unsigned 64-bit number, the largest one if they are more. -/
def stamp (t : WallTime) : Nat := min t.milliseconds (Nat.pow 2 64 - 1)

/-- The instant as a date and a time of day. -/
def utc (t : WallTime) : String :=
  Calendar.format t.sinceEpoch.1 (t.sinceEpoch.2 / 1000000)

end WallTime

/-- A wall clock with the instant of its next reading and those of the readings after it. Once they
are used up it stands still. -/
structure WallClock extends WallTime where
  later : List WallTime := []
  deriving Repr, Inhabited

/-- An instant is a clock that stands still. -/
instance : Coe WallTime WallClock := ⟨fun t => { t with }⟩

def WallClock.read (c : WallClock) : WallTime × WallClock :=
  match c.later with
  | [] => (c.toWallTime, c)
  | t :: rest => (c.toWallTime, { t with later := rest })

/-- A steady clock with its ticks, in nanoseconds. -/
structure Clock where
  ticks : Array Nat
  readings : Nat := 0
  elapsed : Nat := 0
  deriving Repr, Inhabited

namespace Clock

/-- The tick before the next reading. -/
def nextTick (c : Clock) : Nat := c.ticks.getD (c.readings % c.ticks.size) 0

def read (c : Clock) : Nat × Clock :=
  let elapsed := c.elapsed + c.nextTick
  (elapsed, { c with elapsed, readings := c.readings + 1 })

/-- A later reading is not before an earlier one. -/
theorem elapsed_le_read (c : Clock) : c.elapsed ≤ c.read.1 := Nat.le_add_right ..

end Clock
end CallBridge
