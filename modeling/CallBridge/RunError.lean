import CallBridge.Bridge.Failure
import CallBridge.Host.Files
import CallBridge.Host.Memory
import CallBridge.Json.Decoder

/-!
# Errors of a run

Why a benchmark, a verification or a reading of their results failed. Want of memory is no failure
that a run could deal with: the run breaks down.
-/

namespace CallBridge

/-- Why a run failed. -/
inductive RunError where
  | file (e : FileError)
  | json (e : DecodeError)
  | bridge (e : Bridge.Failure)
  | invalidArgument (detail : String)
  | propertyViolated (property detail : String)
  | memory (e : MemoryError)
  deriving DecidableEq, Repr

namespace RunError

/-- The kind as written in reports. -/
def kind : RunError → String
  | file _ => "io"
  | json _ => "json"
  | bridge _ => "bridge"
  | invalidArgument _ => "invalid_argument"
  | propertyViolated .. => "property_violation"
  | memory _ => "memory"

/-- The error in words. -/
def message : RunError → String
  | file e => s!"io: {e.message}"
  | json e => s!"json: {e.message}"
  | bridge e => s!"bridge: {e.message}"
  | invalidArgument detail => s!"invalid argument: {detail}"
  | propertyViolated property detail =>
    "property " ++ DecodeError.ticked property ++ s!" violated: {detail}"
  | memory e => e.message

/-- The error with all its parts. -/
def inFull : RunError → String
  | file e => s!"Io({e.inFull})"
  | json e => s!"Json(Error({Text.quoted e.message}, line: 0, column: 0))"
  | bridge e => s!"Bridge({e.inFull})"
  | invalidArgument detail => s!"InvalidArgument({Text.quoted detail})"
  | propertyViolated property detail =>
    s!"PropertyViolation \x7b property: {Text.quoted property}, " ++
      s!"detail: {Text.quoted detail} \x7d"
  | memory e => e.message

/-- Whether the run breaks down by it. -/
def isBreakdown : RunError → Bool
  | memory _ => true
  | _ => false

end RunError
end CallBridge
