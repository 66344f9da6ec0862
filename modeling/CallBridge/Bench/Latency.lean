import CallBridge.Binary64
import CallBridge.Json.Decoder
import CallBridge.Sort.Runs

/-!
# Latencies

Samples of a latency, summed up by their mean and by percentiles. The samples are put in ascending
order first, so the sum, which is rounded at every step, does not depend on the order they came in.
A sample that is not a number counts as equal to every other, which is no order: with such samples
the course of the sort decides, and it may fail.
-/

namespace CallBridge.Bench

/-- Samples summed up, in nanoseconds for an operation. -/
structure Latency where
  samples : Nat
  p50 : Binary64
  p95 : Binary64
  p99 : Binary64
  mean : Binary64
  deriving DecidableEq, Repr, Inhabited

namespace Latency

/-- Whether samples are all numbers, so that they have an order. -/
def areOrdered (samples : List Binary64) : Bool := samples.all (!·.isNaN)

/-- Samples in ascending order, equal ones in the order they came in; none if the sort fails. -/
def ascending? (samples : List Binary64) : Option (List Binary64) :=
  if areOrdered samples then some (samples.mergeSort fun x y => !y.lt x)
  else Runs.sort Binary64.lt samples

/-- Samples in ascending order. Those that cannot be sorted stay as they came. -/
def ascending (samples : List Binary64) : List Binary64 := (ascending? samples).getD samples

/-- The sum from left to right, from a negative zero on. -/
def sum (samples : List Binary64) : Binary64 := samples.foldl Binary64.add (.zero true)

/-- The place of a percentile, given in hundredths, among `n + 1` samples in ascending order. -/
def percentilePlace (n percent : Nat) : Nat :=
  let share := Binary64.ofDecimal false percent (-2)
  min ((Binary64.ofNat n).mul share).roundHalfUp n

/-- A percentile of samples in ascending order. -/
def percentile (samples : List Binary64) (percent : Nat) : Binary64 :=
  samples.getD (percentilePlace (samples.length - 1) percent) (.zero false)

def meanOf (samples : List Binary64) : Binary64 := (sum samples).div (.ofNat samples.length)

/-- Sum up samples; everything is zero without any. -/
def ofSamples (samples : List Binary64) : Latency :=
  if samples.isEmpty then ⟨0, .zero false, .zero false, .zero false, .zero false⟩
  else
    let sorted := ascending samples
    { samples := sorted.length
      p50 := percentile sorted 50
      p95 := percentile sorted 95
      p99 := percentile sorted 99
      mean := meanOf sorted }

/-- Operations in a millisecond, from nanoseconds for an operation; none if that is not positive. -/
def rate (mean : Binary64) : Binary64 :=
  if (Binary64.zero false).lt mean then (Binary64.ofNat 1000000).div mean else .zero false

def toJson (l : Latency) : Json :=
  .object [("samples", .nat l.samples), ("p50_ns_op", .float l.p50), ("p95_ns_op", .float l.p95),
    ("p99_ns_op", .float l.p99), ("mean_ns_op", .float l.mean)]

def record : Record Latency :=
  .required (.required (.required (.required (.required (.of Latency.mk)
    "samples" .size) "p50_ns_op" .float) "p95_ns_op" .float) "p99_ns_op" .float)
    "mean_ns_op" .float

def decode : Decoder Latency := record.decode "LatencyStats"

end Latency
end CallBridge.Bench
