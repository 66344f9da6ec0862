import CallBridge.Bench.CallShape
import CallBridge.Json.Printer

/-!
# Log entries

A run is logged as one entry for each event, and an entry is one line of JSON. Four fields are
always there; a field without a value is left out.
-/

namespace CallBridge.Log
open Bench

/-- How severe an entry is. -/
inductive Level where
  | trace | debug | info | warn | error | fatal
  deriving DecidableEq, Repr, Inhabited

namespace Level

def name : Level → String
  | trace => "trace"
  | debug => "debug"
  | info => "info"
  | warn => "warn"
  | error => "error"
  | fatal => "fatal"

def all : List Level := [trace, debug, info, warn, error, fatal]

def decode : Decoder Level := .choice (all.map fun l => (l.name, l))

end Level

/-- How what is logged went. -/
inductive Outcome where
  | pass | fail | skip | error
  deriving DecidableEq, Repr, Inhabited

namespace Outcome

def name : Outcome → String
  | pass => "pass"
  | fail => "fail"
  | skip => "skip"
  | error => "error"

def all : List Outcome := [pass, fail, skip, error]

def decode : Decoder Outcome := .choice (all.map fun o => (o.name, o))

end Outcome

/-- What kind of run is logged. -/
inductive RunKind where
  | bench | verify | bindFailure
  deriving DecidableEq, Repr, Inhabited

namespace RunKind

def name : RunKind → String
  | bench => "bench"
  | verify => "verify"
  | bindFailure => "bind_failure"

def all : List RunKind := [bench, verify, bindFailure]

def decode : Decoder RunKind := .choice (all.map fun k => (k.name, k))

end RunKind

/-- An event of a run. Details may hold any value; details that are null are written, but read back
as none. -/
structure Entry where
  timestamp : String
  traceId : String
  level : Level
  event : String
  runKind : Option RunKind := none
  shape : Option CallShape := none
  length : Option Nat := none
  input : Option String := none
  property : Option String := none
  outcome : Option Outcome := none
  exitCode : Option Int := none
  latency : Option Binary64 := none
  rate : Option Binary64 := none
  bridgeCalls : Option Binary64 := none
  duration : Option Nat := none
  artifacts : Option (List String) := none
  details : Option Json := none
  deriving Inhabited

namespace Entry

def toJson (e : Entry) : Json :=
  .object ([("timestamp", .str e.timestamp), ("trace_id", .str e.traceId),
      ("level", .str e.level.name), ("event", .str e.event)] ++
    Json.optional "run_kind" (.str ·.name) e.runKind ++
    Json.optional "shape" (.str ·.name) e.shape ++
    Json.optional "length" .nat e.length ++
    Json.optional "input" .str e.input ++
    Json.optional "property" .str e.property ++
    Json.optional "outcome" (.str ·.name) e.outcome ++
    Json.optional "exit_code" .int e.exitCode ++
    Json.optional "latency_ns" .float e.latency ++
    Json.optional "ops_per_ms" .float e.rate ++
    Json.optional "bridge_calls_per_op" .float e.bridgeCalls ++
    Json.optional "duration_ms" .nat e.duration ++
    Json.optional "artifact_refs" (fun paths => .array (paths.map .str)) e.artifacts ++
    Json.optional "details" id e.details)

def line (e : Entry) : String := e.toJson.compact

/-- A signed 32-bit number. -/
def decodeExitCode : Decoder Int := .integer "i32" (-(Nat.pow 2 31 : Nat)) (Nat.pow 2 31 : Nat)

/-- The fields of an entry, in their order. -/
def record : Record Entry :=
  let required : Record (Option RunKind → Option CallShape → Option Nat → Option String →
      Option String → Option Outcome → Option Int → Option Binary64 → Option Binary64 →
      Option Binary64 → Option Nat → Option (List String) → Option Json → Entry) :=
    .required (.required (.required (.required (.of Entry.mk)
      "timestamp" .string) "trace_id" .string) "level" Level.decode) "event" .string
  let subject := Record.optional (.optional (.optional (.optional (.optional required
    "run_kind" RunKind.decode) "shape" CallShape.decode) "length" .size)
    "input" .string) "property" .string
  let figures := Record.optional (.optional (.optional (.optional (.optional (.optional subject
    "outcome" Outcome.decode) "exit_code" decodeExitCode) "latency_ns" .float)
    "ops_per_ms" .float) "bridge_calls_per_op" .float) "duration_ms" .word
  .optional (.optional figures "artifact_refs" (.list .string)) "details" .any

def decode : Decoder Entry := record.decode "LogEntry"

end Entry
end CallBridge.Log
