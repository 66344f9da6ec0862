import CallBridge.Bench.Measurement
import CallBridge.Bench.Trial

/-!
# Running a benchmark

Each pair of a shape and a length is measured on its own trial: calls to warm up, one counted call
if managed code is asked, then the samples, which are kept in one piece. A sample is the time of
some calls, at least a nanosecond, divided by their number. With a log, each pair has its line
there, unless the run breaks down at it.
-/

namespace CallBridge.Bench
open Log

variable {σ : Type}

/-- The nanoseconds for one call, from the readings before and after some calls. -/
def perCall (start stop calls : Nat) : Binary64 :=
  (Binary64.ofNat (max (stop - start) 1)).div (.ofNat calls)

/-- The number of bytes a sample is kept in. -/
def sampleBytes : Nat := 8

/-- Take `n` samples of so many calls each, added to the samples taken, the last one first. -/
def takeSamples (calls : Nat) : (n : Nat) → Trial → List Binary64 → Task σ (List Binary64)
  | 0, _, taken => return taken.reverse
  | n + 1, t, taken => do
    let start ← Task.ask .reading
    let t ← t.calls calls
    let stop ← Task.ask .reading
    takeSamples calls n t (perCall start stop calls :: taken)

/-- Count what one call asks managed code, for a shape that does. -/
def countCalls (t : Trial) : Task σ (Option Binary64 × Trial) := do
  if t.shape.isBridged then
    let before ← Task.look (·.counters.invocations)
    let t ← t.calls 1
    let after ← Task.look (·.counters.invocations)
    return (some (.ofNat (after - before)), t)
  else
    return (none, t)

def measure (p : Plan) (shape : CallShape) (length : Nat) : Task σ Measurement := do
  if p.sizing.samples = 0 ∨ p.sizing.calls = 0 then
    Task.fail (.invalidArgument "sample count and iterations per sample must be positive")
  else
    let t ← Trial.prepare shape length p.input p.seed
    let t ← t.calls p.sizing.warmup
    let (bridgeCalls, t) ← countCalls t
    Task.reserve (sampleBytes * p.sizing.samples)
    let samples ← takeSamples p.sizing.calls p.sizing.samples t []
    let latency := Latency.ofSamples samples
    return {
      shape
      length
      input := p.input
      latency
      rate := Latency.rate latency.mean
      bridgeCalls }

/-- The milliseconds between two readings, as an unsigned 64-bit number. -/
def milliseconds (start stop : Nat) : Nat := (stop - start) / 1000000 % Nat.pow 2 64

def beginEntry (log : Emitter) (timestamp : String) (level : Level) (event : String) (p : Plan)
    (shape : CallShape) (length : Nat) : Entry × Emitter :=
  let (entry, log) := log.entry timestamp level event
  ({ entry with shape := some shape, length := some length, input := some p.input.name }, log)

/-- Log a measurement that was begun at a reading. -/
def logMeasurement (p : Plan) (start : Nat) (m : Measurement) : Task σ Unit := do
  match ← Task.look (·.log) with
  | none => return
  | some log =>
    let now ← Task.ask .wallTime
    let stop ← Task.ask .reading
    let (entry, log) := beginEntry log now.utc .info "measurement" p m.shape m.length
    Task.write log { entry with
      latency := some m.latency.mean
      rate := some m.rate
      outcome := some .pass
      duration := some (milliseconds start stop)
      bridgeCalls := m.bridgeCalls }

/-- Log that a measurement failed. -/
def logFailure (p : Plan) (shape : CallShape) (length : Nat) (e : RunError) : Task σ Unit := do
  match ← Task.look (·.log) with
  | none => return
  | some log =>
    let now ← Task.ask .wallTime
    let (entry, log) := beginEntry log now.utc .error "measurement_failed" p shape length
    Task.write log { entry with
      outcome := some .error
      details := some (.object [("error", .str e.message)]) }

/-- Measure a shape at a length, announce the diagnostics and log how that went. A breakdown is not
logged. -/
def measureAndLog (p : Plan) (shape : CallShape) (length : Nat) : Task σ Measurement := do
  let start ← Task.ask .reading
  let result ← (measure p shape length).attempt
  Task.announce
  match result with
  | .ok m =>
    logMeasurement p start m
    return m
  | .error e =>
    if !e.isBreakdown then logFailure p shape length e
    Task.fail e

/-- Measure one pair after the other, added to the measurements made, the last one first. -/
def measureAll (p : Plan) :
    List (CallShape × Nat) → List Measurement → Task σ (List Measurement)
  | [], made => return made.reverse
  | (shape, length) :: rest, made => do
    let m ← measureAndLog p shape length
    measureAll p rest (m :: made)

/-- Measure what a plan asks for. -/
def run (p : Plan) : Task σ (List Measurement) :=
  if p.shapes.isEmpty ∨ p.lengths.isEmpty then
    Task.fail (.invalidArgument "nothing to measure")
  else measureAll p p.pairs []

end CallBridge.Bench
