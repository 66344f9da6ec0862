import CallBridge.Bench.Arrangement
import CallBridge.Bench.CallShape

/-!
# Plans

What a benchmark measures: which shapes, at which lengths, with which input, and how many calls of
each.
-/

namespace CallBridge.Bench

/-- How many calls are made: some to warm up, then samples of so many calls each. -/
structure Sizing where
  warmup : Nat := 1000
  samples : Nat := 15
  calls : Nat := 2000
  deriving DecidableEq, Repr, Inhabited

namespace Sizing

def toJson (s : Sizing) : Json :=
  .object [("warmup_iters", .nat s.warmup), ("sample_count", .nat s.samples),
    ("sample_iters", .nat s.calls)]

def record : Record Sizing :=
  .required (.required (.required (.of Sizing.mk)
    "warmup_iters" .word) "sample_count" .size) "sample_iters" .word

def decode : Decoder Sizing := record.decode "MicrobenchConfig"

end Sizing

/-- What is measured. -/
structure Plan where
  shapes : List CallShape := CallShape.all
  lengths : List Nat := standardLengths
  input : Arrangement := .ascending
  seed : UInt64 := Generator.standardSeed
  sizing : Sizing := {}
  deriving DecidableEq, Repr, Inhabited

namespace Plan

/-- The lengths a shape is measured at: once, at zero, if the length makes no difference. -/
def lengthsFor (p : Plan) (shape : CallShape) : List Nat :=
  if shape.takesLength then p.lengths else [0]

/-- The pairs of a shape and a length, in the order they are measured. -/
def pairs (p : Plan) : List (CallShape × Nat) :=
  p.shapes.flatMap fun shape => (p.lengthsFor shape).map fun n => (shape, n)

def toJson (p : Plan) : Json :=
  .object [("shapes", .array (p.shapes.map (.str ·.name))),
    ("lengths", .array (p.lengths.map .nat)), ("input", .str p.input.name),
    ("seed", .nat p.seed.toNat), ("bench", p.sizing.toJson)]

/-- A seed, an unsigned 64-bit number. -/
def decodeSeed : Decoder UInt64 := fun j => (Decoder.word j).map UInt64.ofNat

def record : Record Plan :=
  .required (.required (.required (.required (.required (.of Plan.mk)
    "shapes" (.list CallShape.decode)) "lengths" (.list .size)) "input" Arrangement.decode)
    "seed" decodeSeed) "bench" Sizing.decode

def decode : Decoder Plan := record.decode "RunConfig"

end Plan
end CallBridge.Bench
