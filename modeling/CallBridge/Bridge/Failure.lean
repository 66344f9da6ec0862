import CallBridge.Text.Quoted

/-!
# Failures of a crossing

What can go wrong between native and managed code: the comparator could not be resolved, at one of
four stages; the calling thread could not be attached; the comparator threw.
-/

namespace CallBridge.Bridge

/-- The stages of resolving a comparator, in their order. -/
inductive Stage where
  | runtimeHandle | classLookup | methodLookup | globalRef
  deriving DecidableEq, Repr

/-- The stage as written in reports. -/
def Stage.name : Stage → String
  | runtimeHandle => "runtime_handle"
  | classLookup => "class_lookup"
  | methodLookup => "method_lookup"
  | globalRef => "global_ref"

/-- The stage as shown in a failure's full form. -/
def Stage.constructorName : Stage → String
  | runtimeHandle => "RuntimeHandle"
  | classLookup => "ClassLookup"
  | methodLookup => "MethodLookup"
  | globalRef => "GlobalRef"

/-- Why a crossing failed. -/
inductive Failure where
  | resolution (stage : Stage) (detail : String)
  | attachment (detail : String)
  | invocation (detail : String)
  deriving DecidableEq, Repr

namespace Failure

/-- The kind as written in reports. -/
def kind : Failure → String
  | resolution .. => "binding_resolution"
  | attachment _ => "attachment"
  | invocation _ => "invocation"

/-- The failure in words. -/
def message : Failure → String
  | resolution stage detail => s!"binding resolution failed at {stage.name}: {detail}"
  | attachment detail => s!"thread attachment failed: {detail}"
  | invocation detail => s!"managed call failed: {detail}"

/-- The failure with all its parts. -/
def inFull : Failure → String
  | resolution stage detail =>
    s!"BindingResolution \x7b stage: {stage.constructorName}, detail: {Text.quoted detail} \x7d"
  | attachment detail => s!"Attachment \x7b detail: {Text.quoted detail} \x7d"
  | invocation detail => s!"Invocation \x7b detail: {Text.quoted detail} \x7d"

def stage? : Failure → Option Stage
  | resolution stage _ => some stage
  | _ => none

/-- The method's signature is not that of a comparator. -/
def notComparator (name signature : String) : Failure :=
  resolution .methodLookup
    s!"{name} has signature {signature}, expected a (long, long) -> int comparator"

/-- The runtime gives no handle of itself. -/
def handleUnavailable (runtime : Nat) : Failure :=
  resolution .runtimeHandle s!"runtime {runtime} handle unavailable"

/-- A local reference is used in another frame than its own. -/
def foreignFrame (own used : Nat) : Failure :=
  resolution .globalRef s!"local reference from frame {own} used in frame {used}"

/-- A local reference names no object. -/
def dangling : Failure := resolution .classLookup "dangling object reference"

/-- The runtime has no class of this name. -/
def classMissing (name : String) : Failure :=
  resolution .classLookup s!"class {name} not found"

def methodMissing (isStatic : Bool) (name signature className : String) : Failure :=
  let sort := if isStatic then "static" else "instance"
  resolution .methodLookup s!"{sort} method {name}{signature} not found on {className}"

def attachRefused (runtime : Nat) (thread : String) : Failure :=
  attachment s!"runtime {runtime} refused to attach thread {thread}"

/-- The comparator threw. -/
def thrown : Failure := invocation "java.lang.IllegalStateException thrown by comparator"

end Failure
end CallBridge.Bridge
