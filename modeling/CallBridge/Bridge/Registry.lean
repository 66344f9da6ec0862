import CallBridge.Bridge.Binding

/-!
# Registries

A registry holds one binding, established on first use and then handed out to everyone, whatever
context and source they bring. Each attempt to establish it is written as a diagnostic; after a
failed one the registry is as if it had never been used.
-/

namespace CallBridge.Bridge
open Managed Diagnostic

/-- A holder of one binding. -/
structure Registry (σ : Type) where
  binding : Option (Binding σ) := none

namespace Registry
variable {σ : Type}

def isBound (r : Registry σ) : Bool := r.binding.isSome

/-- The fields of the diagnostic on a binding established from a source. -/
def establishedFields (s : Source) : Json :=
  .object [("method", .str s.method.name), ("signature", .str s.method.signature),
    ("variant", .str s.variant.name)]

/-- The fields of the diagnostic on a failure to bind a source. -/
def failedFields (s : Source) (e : Failure) : Json :=
  .object [("error", .str e.message), ("kind", .str e.kind), ("method", .str s.method.name),
    ("variant", .str s.variant.name)]

/-- Establish a binding and write how that went. -/
def establish (c : Context) (s : Source) : Act σ (Binding σ) := fun w =>
  match resolve c s w with
  | (.ok b, w) => (.ok b, w.notify (.level .info) "binding_established" (establishedFields s))
  | (.error e, w) => (.error e, w.notify (.level .error) "binding_failed" (failedFields s e))

/-- The binding, established from a source on first use. -/
def bind (r : Registry σ) (c : Context) (s : Source) (w : World σ) :
    Except Failure (Binding σ) × Registry σ × World σ :=
  match r.binding with
  | some b => (.ok b, r, w)
  | none =>
    match establish c s w with
    | (.ok b, w) => (.ok b, ⟨some b⟩, w)
    | (.error e, w) => (.error e, r, w)

/-- Drop a registry and the binding it holds. -/
def release (r : Registry σ) (w : World σ) : World σ :=
  match r.binding with
  | some b => b.release w
  | none => w

/-- A bound registry gives its binding and changes nothing. -/
theorem bind_of_bound {r : Registry σ} {b : Binding σ} (h : r.binding = some b) (c : Context)
    (s : Source) (w : World σ) : r.bind c s w = (.ok b, r, w) := by
  simp [bind, h]

end Registry
end CallBridge.Bridge
