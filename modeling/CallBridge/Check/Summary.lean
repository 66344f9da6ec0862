import CallBridge.Bench.Plan
import CallBridge.Json.Printer

/-!
# Summaries of checks

The verdicts on some properties, counted, and their report.
-/

namespace CallBridge.Check

/-- The verdict on a property: what was checked, or why it does not hold. -/
structure Verdict where
  property : String
  passed : Bool
  detail : String
  deriving DecidableEq, Repr, Inhabited

namespace Verdict

def ofCheck (property : String) : Except String String → Verdict
  | .ok detail => ⟨property, true, detail⟩
  | .error detail => ⟨property, false, detail⟩

def toJson (v : Verdict) : Json :=
  .object [("property", .str v.property), ("passed", .bool v.passed), ("detail", .str v.detail)]

def record : Record Verdict :=
  .required (.required (.required (.of Verdict.mk)
    "property" .string) "passed" .bool) "detail" .string

def decode : Decoder Verdict := record.decode "PropertyResult"

def status (v : Verdict) : String := if v.passed then "PASS" else "FAIL"

end Verdict

/-- Verdicts, counted. -/
structure Summary where
  total : Nat
  passed : Nat
  failed : Nat
  verdicts : List Verdict
  deriving DecidableEq, Repr, Inhabited

namespace Summary

def ofVerdicts (vs : List Verdict) : Summary :=
  let passed := (vs.filter (·.passed)).length
  ⟨vs.length, passed, vs.length - passed, vs⟩

def allPassed (s : Summary) : Bool := s.failed = 0

/-- An error on the first property that does not hold, if there is one. -/
def ensurePassed (s : Summary) : Except RunError Unit :=
  match s.verdicts.find? (!·.passed) with
  | some v => .error (.propertyViolated v.property v.detail)
  | none => .ok ()

def toJson (s : Summary) : Json :=
  .object [("total", .nat s.total), ("passed", .nat s.passed), ("failed", .nat s.failed),
    ("results", .array (s.verdicts.map (·.toJson)))]

def record : Record Summary :=
  .required (.required (.required (.required (.of Summary.mk)
    "total" .size) "passed" .size) "failed" .size) "results" (.list Verdict.decode)

def decode : Decoder Summary := record.decode "VerificationSummary"

end Summary

/-- The report of a verification. -/
structure Report where
  title : String
  timestamp : String
  seed : UInt64
  summary : Summary
  deriving DecidableEq, Repr, Inhabited

namespace Report

def toJson (r : Report) : Json :=
  .object [("title", .str r.title), ("timestamp", .str r.timestamp), ("seed", .nat r.seed.toNat),
    ("summary", r.summary.toJson)]

def jsonText (r : Report) : String := r.toJson.pretty

def record : Record Report :=
  .required (.required (.required (.required (.of Report.mk)
    "title" .string) "timestamp" .string) "seed" Bench.Plan.decodeSeed) "summary" Summary.decode

def decode : Decoder Report := record.decode "VerifyReport"

def tableRow (v : Verdict) : String := s!"| {v.property} | {v.status} | {v.detail} |"

def markdown (r : Report) : String :=
  Text.ofLines ([s!"# {r.title}", "",
    s!"- Timestamp: {r.timestamp}",
    s!"- Seed: {Text.hex r.seed.toNat}",
    s!"- Total: {r.summary.total}",
    s!"- Passed: {r.summary.passed}",
    s!"- Failed: {r.summary.failed}",
    "", "| Property | Status | Detail |", "|----------|--------|--------|"] ++
    r.summary.verdicts.map tableRow)

end Report
end CallBridge.Check
