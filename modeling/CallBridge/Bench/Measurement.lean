import CallBridge.Bench.Latency
import CallBridge.Bench.Plan

/-!
# Measurements

What was measured for one shape at one length.
-/

namespace CallBridge.Bench

/-- The latency of a shape at a length, and how often an operation asks managed code, if it does. -/
structure Measurement where
  shape : CallShape
  length : Nat
  input : Arrangement
  latency : Latency
  rate : Binary64
  bridgeCalls : Option Binary64 := none
  deriving DecidableEq, Repr, Inhabited

namespace Measurement

def toJson (m : Measurement) : Json :=
  .object ([("shape", .str m.shape.name), ("length", .nat m.length), ("input", .str m.input.name),
    ("stats", m.latency.toJson), ("ops_per_ms", .float m.rate)] ++
    Json.optional "bridge_calls_per_op" .float m.bridgeCalls)

def record : Record Measurement :=
  .optional (.required (.required (.required (.required (.required (.of Measurement.mk)
    "shape" CallShape.decode) "length" .size) "input" Arrangement.decode)
    "stats" Latency.decode) "ops_per_ms" .float) "bridge_calls_per_op" .float

def decode : Decoder Measurement := record.decode "Measurement"

end Measurement
end CallBridge.Bench
