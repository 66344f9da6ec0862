import CallBridge.Bench.Measurement
import CallBridge.Json.Printer
import CallBridge.Managed.Machine

/-!
# Reports of a benchmark

A report is written as JSON, which reads back, and as a table in Markdown.
-/

namespace CallBridge

namespace Managed.Counters

def toJson (c : Counters) : Json :=
  .object [("handle_requests", .nat c.handleRequests), ("method_lookups", .nat c.methodLookups),
    ("global_refs_created", .nat c.globalRefsCreated), ("live_global_refs", .nat c.liveGlobalRefs),
    ("attach_checks", .nat c.attachChecks), ("attachments", .nat c.attachments),
    ("invocations", .nat c.invocations)]

def record : Record Counters :=
  .required (.required (.required (.required (.required (.required (.required (.of Counters.mk)
    "handle_requests" .word) "method_lookups" .word) "global_refs_created" .word)
    "live_global_refs" .word) "attach_checks" .word) "attachments" .word) "invocations" .word

def decode : Decoder Counters := record.decode "SimStats"

end Managed.Counters

namespace Bench
open Managed

/-- The results of a benchmark with what the runtime counted. -/
structure Report where
  title : String
  timestamp : String
  input : Arrangement
  seed : UInt64
  sizing : Sizing
  measurements : List Measurement
  runtime : Counters
  deriving DecidableEq, Repr, Inhabited

namespace Report

def toJson (r : Report) : Json :=
  .object [("title", .str r.title), ("timestamp", .str r.timestamp), ("input", .str r.input.name),
    ("seed", .nat r.seed.toNat), ("config", r.sizing.toJson),
    ("measurements", .array (r.measurements.map (·.toJson))), ("runtime", r.runtime.toJson)]

def jsonText (r : Report) : String := r.toJson.pretty

def record : Record Report :=
  .required (.required (.required (.required (.required (.required (.required (.of Report.mk)
    "title" .string) "timestamp" .string) "input" Arrangement.decode) "seed" Plan.decodeSeed)
    "config" Sizing.decode) "measurements" (.list Measurement.decode)) "runtime" Counters.decode

def decode : Decoder Report := record.decode "BenchReport"

def tableHead : List String :=
  ["| Shape | Length | p50 ns/op | p95 ns/op | mean ns/op | ops/ms | bridge calls/op |",
    "|-------|-------:|----------:|----------:|-----------:|-------:|----------------:|"]

def tableRow (m : Measurement) : String :=
  let calls := (m.bridgeCalls.map (Decimal.fixed 0)).getD "-"
  let figures := [m.latency.p50, m.latency.p95, m.latency.mean, m.rate].map (Decimal.fixed 1)
  "| " ++ " | ".intercalate ([m.shape.name, toString m.length] ++ figures ++ [calls]) ++ " |"

def markdown (r : Report) : String :=
  Text.ofLines ([s!"# {r.title}", "",
    s!"- Timestamp: {r.timestamp}",
    s!"- Input: {r.input.name} (seed {Text.hex r.seed.toNat})",
    s!"- Samples: {r.sizing.samples} x {r.sizing.calls} iterations (warmup {r.sizing.warmup})",
    s!"- Global references created: {r.runtime.globalRefsCreated} " ++
      s!"(live {r.runtime.liveGlobalRefs})",
    ""] ++ tableHead ++ r.measurements.map tableRow)

end Report
end Bench
end CallBridge
