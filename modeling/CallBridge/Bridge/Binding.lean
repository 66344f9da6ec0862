import CallBridge.Managed.World

/-!
# Bindings

A binding is a resolved comparator: its runtime, its method and the body that was found, kept alive
by a global reference to the object or class it was found on; the runtime numbers these references,
so a binding is known by its runtime and its reference. Resolution asks for the handle of the
runtime, then looks for the method, then promotes the reference, and counts each of these steps as
far as it gets. A binding answers for two elements on any thread.
-/

namespace CallBridge.Bridge
open Managed

/-- How a comparator is reached: by a class or by an object. -/
inductive Variant where
  | onClass | onObject
  deriving DecidableEq, Repr

def Variant.name : Variant → String
  | onClass => "static"
  | onObject => "instance"

/-- Where to find a comparator. -/
inductive Source where
  | ofClass (className : String) (method : Method)
  | ofObject (comparator : LocalRef) (method : Method)
  deriving DecidableEq, Repr

namespace Source

/-- The static comparator of the benchmark. -/
def benchmark : Source := ofClass benchmarkClass .staticComparator

/-- The comparator of a comparator object. -/
def comparator (r : LocalRef) : Source := ofObject r .instanceComparator

def method : Source → Method
  | ofClass _ m => m
  | ofObject _ m => m

def variant : Source → Variant
  | ofClass .. => .onClass
  | ofObject .. => .onObject

end Source

/-- A resolved comparator. -/
structure Binding (σ : Type) where
  machine : Nat
  reference : Nat
  variant : Variant
  method : Method
  body : Body σ

namespace Binding
variable {σ : Type}

/-- Whether two bindings are one and the same. -/
def isSame (a b : Binding σ) : Bool := a.machine = b.machine && a.reference = b.reference

/-- Whether the global reference keeps an object alive, and not a class. -/
def holdsObject (b : Binding σ) : Bool := b.variant = .onObject

/-- Drop a binding: its global reference is released. -/
def release (b : Binding σ) (w : World σ) : World σ := w.count b.machine .countRelease

end Binding

variable {σ : Type}

/-- The body a source leads to, looked up through a context. -/
def lookup (c : Context) : Source → Act σ (Body σ)
  | .ofClass className m => findMethod c.machine className m true
  | .ofObject r m => do
    let className ← classOf c r
    findMethod c.machine className m false

/-- Look a source up and promote the reference found. -/
def resolveTarget (c : Context) (s : Source) : Act σ (Binding σ) := do
  let body ← lookup c s
  let reference ← Act.look (·.referencesCreated c.machine)
  Act.change (·.count c.machine .countPromotion)
  return ⟨c.machine, reference, s.variant, s.method, body⟩

/-- Resolve a comparator. Only a method of a comparator's signature is looked for. -/
def resolve (c : Context) (s : Source) : Act σ (Binding σ) :=
  if s.method.isComparator then do
    requestHandle c
    resolveTarget c s
  else Act.fail (.notComparator s.method.name s.method.signature)

/-- Ask a binding for the order of two elements, on a thread. -/
def Binding.invoke (b : Binding σ) (thread : Thread) (q : Question) : Act σ Int32 := do
  ensureAttached thread b.machine
  call b.machine b.body q

end CallBridge.Bridge
