import CallBridge.Diagnostic.Level
import CallBridge.Json.Printer

/-!
# Diagnostics

A diagnostic is written as one line holding a JSON object with the time, the level, the component
and the event. Members of the fields join the object unless they bear one of these four names;
fields of another form than an object or null stand under `detail`.
-/

namespace CallBridge.Diagnostic

/-- A level, or beyond all levels: such a diagnostic is written at every threshold. -/
inductive Severity where
  | level (l : Level)
  | fatal
  deriving DecidableEq, Repr

/-- An event with its fields. -/
structure Notice where
  severity : Severity
  event : String
  fields : Json

namespace Severity

def name : Severity → String
  | level l => l.name
  | fatal => "fatal"

/-- Whether a diagnostic of this severity is written at a threshold. -/
def passes (s : Severity) (threshold : Level) : Bool :=
  match s with
  | level l => l.passes threshold
  | fatal => true

end Severity

/-- The members every line has. -/
def frame (milliseconds : Nat) (level event : String) : Json.Members :=
  [("component", .str "bridge"), ("event", .str event), ("level", .str level),
    ("timestamp_ms", .nat milliseconds)]

/-- The members a diagnostic adds. -/
def extra : Json → Json.Members
  | .object ms => ms
  | .null => []
  | j => [("detail", j)]

/-- The object of a line, its members sorted by key. -/
def record (milliseconds : Nat) (level event : String) (fields : Json) : Json :=
  let frame := frame milliseconds level event
  .object (Json.Members.sort ((extra fields).filter (!frame.contains ·.1) ++ frame))

def line (milliseconds : Nat) (level event : String) (fields : Json) : String :=
  (record milliseconds level event fields).compact

namespace Notice

/-- The line of a diagnostic. -/
def render (milliseconds : Nat) (n : Notice) : String :=
  line milliseconds n.severity.name n.event n.fields

/-- The diagnostics that are written at a threshold. -/
def passing (threshold : Level) (ns : List Notice) : List Notice :=
  ns.filter (·.severity.passes threshold)

/-- The lines written for diagnostics at a threshold, all of them at one time. -/
def renderAll (milliseconds : Nat) (threshold : Level) (ns : List Notice) : List String :=
  (passing threshold ns).map (render milliseconds)

end Notice
end CallBridge.Diagnostic
