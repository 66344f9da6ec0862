import CallBridge.Bridge.Claim
import CallBridge.Bridge.Sorting

/-!
# Verifications

A verification works in a world of its own and ends with a detail on what was checked, or with the
reason why the property does not hold. An act of the bridge that fails where it should not is such a
reason.
-/

namespace CallBridge.Check
open Bridge Managed

/-- A course of acts in a world, which a reason ends early. -/
def Verification (σ α : Type) : Type := World σ → Except String α × World σ

namespace Verification
variable {σ α β : Type}

instance : Monad (Verification σ) where
  pure a := fun w => (.ok a, w)
  bind x f := fun w =>
    match x w with
    | (.ok a, w) => f a w
    | (.error e, w) => (.error e, w)

/-- The property does not hold. -/
def fail (reason : String) : Verification σ α := fun w => (.error reason, w)

/-- The reason that a failed act is. -/
def unexpected (e : Failure) : String := s!"unexpected bridge error: {e.message}"

def look (f : World σ → α) : Verification σ α := fun w => (.ok (f w), w)

def change (f : World σ → World σ) : Verification σ Unit := fun w => (.ok (), f w)

/-- An act that should not fail. -/
def act (x : Act σ α) : Verification σ α := fun w =>
  match x w with
  | (.ok a, w) => (.ok a, w)
  | (.error e, w) => (.error (unexpected e), w)

/-- Bind a registry, which should not fail. -/
def bind (r : Registry σ) (c : Context) (s : Source) : Verification σ (Binding σ × Registry σ) :=
  fun w =>
    match r.bind c s w with
    | (.ok b, r, w) => (.ok (b, r), w)
    | (.error e, _, w) => (.error (unexpected e), w)

/-- What a thread hands over when it is waited for: what its call has returned. One that has not
come to the end of its call is taken for one that broke down. -/
def joined : Call (Binding σ) Failure → Except Failure (Binding σ)
  | .finished result => result
  | _ => .error (.attachment "binding thread panicked")

/-- Let threads bind a new registry, each in a context of its own, and wait for them. They take the
steps of their calls in the order of the schedule. -/
def contend (contexts : Nat → Context) (s : Source) (threads schedule : List Nat) :
    Verification σ (List (Except Failure (Binding σ))) := fun w =>
  let after := Call.race (fun i => Registry.establish (contexts i) s) w schedule
  (.ok (threads.map fun i => joined (after.position i)), after.shared.world)

/-- Sort a buffer through a registry, whatever comes of it. -/
def trySort (r : Registry σ) (c : Context) (s : Source) (buffer : Array Int32) :
    Verification σ (Except Failure Unit × Array Int32 × Registry σ) := fun w =>
  let (sorted, r) := r.sort .main c s (.whole buffer) buffer w
  (.ok (sorted.result, sorted.buffer, r), sorted.memory)

/-- Sort a buffer through a registry, which should not fail. -/
def sort (r : Registry σ) (c : Context) (s : Source) (buffer : Array Int32) :
    Verification σ (Array Int32 × Registry σ) := do
  match ← trySort r c s buffer with
  | (.ok _, buffer, r) => return (buffer, r)
  | (.error e, _) => fail (unexpected e)

/-- Sort a buffer through a binding on a thread, whatever comes of it. -/
def trySortBound (b : Binding σ) (thread : Thread) (buffer : Array Int32) :
    Verification σ (Except Failure Unit × Array Int32) := fun w =>
  let sorted := b.sort thread (.whole buffer) buffer w
  (.ok (sorted.result, sorted.buffer), sorted.memory)

/-- Do two things, in the one or the other order. -/
def both (secondFirst : Bool) (x : Verification σ α) (y : Verification σ β) :
    Verification σ (α × β) := do
  if secondFirst then
    let b ← y
    return (← x, b)
  else
    let a ← x
    return (a, ← y)

/-- Go through a list, each step beginning where the one before it ended. -/
def fold (f : β → α → Verification σ β) : β → List α → Verification σ β
  | b, [] => return b
  | b, a :: rest => do fold f (← f b a) rest

end Verification
end CallBridge.Check
