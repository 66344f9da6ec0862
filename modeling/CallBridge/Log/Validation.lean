import CallBridge.Bench.Arrangement
import CallBridge.Json.Parser
import CallBridge.Log.Entry
import CallBridge.Text.Blank

/-!
# Validation of a log

A line of a log has to be a JSON object with the four fields that every entry has, words only from
their lists, a shape in every measurement, a property in every checked property, and a trace id of
three parts. All defects of a line are reported, in this order; only a line without any is decoded.
-/

namespace CallBridge.Log
open Bench

/-- What is wrong with a line. -/
structure Defect where
  line : Nat
  field : String
  message : String
  deriving DecidableEq, Repr, Inhabited

/-- The defect in words. -/
def Defect.text (d : Defect) : String := s!"line {d.line}: field '{d.field}': {d.message}"

namespace Validation

/-- The fields every entry has. -/
def requiredFields : List String := ["timestamp", "trace_id", "level", "event"]

/-- The events that ask for a further field. -/
def measurementEvent : String := "measurement"

def propertyEvent : String := "property_checked"

/-- The text of a field that holds one. -/
def textField (ms : Json.Members) (name : String) : Option String :=
  match ms.find? name with
  | some (.str s) => some s
  | _ => none

/-- Defects of a field that are there if its text does not pass. -/
def refused (ms : Json.Members) (field : String) (passes : String → Bool)
    (message : String → String) : List (String × String) :=
  match textField ms field with
  | some s => if passes s then [] else [(field, message s)]
  | none => []

/-- A message that shows a text. -/
def wrong (message text : String) : String := s!"{message}: '{text}'"

/-- The number of parts between the separators, which are two colons each. -/
def parts : List Char → Nat
  | ':' :: ':' :: rest => parts rest + 1
  | _ :: rest => parts rest
  | [] => 1

/-- Whether a text is not only blanks. -/
def isFilled (s : String) : Bool := Text.trim s ≠ ""

def missingFields (ms : Json.Members) : List (String × String) :=
  (requiredFields.filter (!ms.contains ·)).map (·, "required field missing")

def wrongWords (ms : Json.Members) : List (String × String) :=
  refused ms "level" ((Level.all.map (·.name)).contains ·) (wrong "invalid level") ++
  refused ms "outcome" ((Outcome.all.map (·.name)).contains ·) (wrong "invalid outcome") ++
  refused ms "run_kind" ((RunKind.all.map (·.name)).contains ·) (wrong "invalid run_kind") ++
  refused ms "shape" (fun s => (CallShape.ofName? s).isSome) (wrong "unknown shape") ++
  refused ms "input" ((Arrangement.all.map (·.name)).contains ·) (wrong "invalid input")

/-- A measurement has a member for its shape, and a checked property the text of its name. -/
def missingSubjects (ms : Json.Members) : List (String × String) :=
  let event := textField ms "event"
  (if event = some measurementEvent ∧ !ms.contains "shape" then
    [("shape", "measurement events must include the call shape")] else []) ++
  (if event = some propertyEvent ∧ !(textField ms "property").any isFilled then
    [("property", "property_checked events must include a non-empty property")] else [])

def wrongTraceId (ms : Json.Members) : List (String × String) :=
  refused ms "trace_id" (fun s => parts s.toList = 3)
    (wrong "trace_id should follow <run_kind>::<run_id>::<seq> format, got")

/-- All defects of the members of a line, each with its field. -/
def defects (ms : Json.Members) : List (String × String) :=
  missingFields ms ++ wrongWords ms ++ missingSubjects ms ++ wrongTraceId ms

/-- The entry of a line, or its defects. -/
def entryOf (j : Json) : Except (List (String × String)) Entry :=
  match j with
  | .object ms =>
    match defects ms with
    | [] =>
      match Entry.decode j with
      | .ok entry => .ok entry
      | .error e => .error [("<deserialization>", s!"failed to deserialize: {e.message}")]
    | ds => .error ds
  | _ => .error [("<root>", "expected JSON object")]

/-- Validate a line that stands at a place of its log. -/
def line (number : Nat) (text : List Char) : Except (List Defect) Entry :=
  let place (ds : List (String × String)) : List Defect :=
    ds.map fun (field, message) => ⟨number, field, message⟩
  match Json.ofChars Json.maxDepth text with
  | .error e => .error (place [("<json>", s!"invalid JSON: {e.message}")])
  | .ok j => (entryOf j).mapError place

/-- The defects of a line. -/
def defectsOf (number : Nat) (text : List Char) : List Defect :=
  match line number text with
  | .ok _ => []
  | .error ds => ds

/-- The lines of a log that are not blank, trimmed, with their numbers. -/
def numbered (s : String) : List (Nat × List Char) :=
  ((Text.lines s).zipIdx 1).filterMap fun (l, number) =>
    let l := Text.trimChars l
    if l.isEmpty then none else some (number, l)

/-- Validate a log: the number of its lines that are not blank, and the defects of all of them. -/
def log (s : String) : Nat × List Defect :=
  let lines := numbered s
  (lines.length, lines.flatMap fun (number, l) => defectsOf number l)

end Validation
end CallBridge.Log
