import CallBridge.Bridge.Registry
import CallBridge.Interleaving

/-!
# Concurrent first use

Callers of a registry that is not bound yet race for its claim. The one who gets it resolves its
source and either stores the binding and publishes it, or gives the claim back; the others look
again. Each call moves through its positions by atomic steps, in which it reads or writes one of
the two things that callers share: the phase and the stored binding. The resolution is a step too,
in the world around the registry.

`Call.race` lets calls take their steps in any order, and `Call.alone` says that an undisturbed call
does what `Registry.bind` does.
-/

namespace CallBridge.Bridge

/-- How far a registry has come. -/
inductive Phase where
  | unbound | binding | bound
  deriving DecidableEq, Repr

/-- What the callers of a registry share. The binding is stored before it is published. -/
structure Cell (β : Type) where
  phase : Phase := .unbound
  stored : Option β := none

/-- A cell in the world that its callers resolve in. -/
structure Venue (ω β : Type) where
  cell : Cell β := {}
  world : ω

/-- Where a call stands. -/
inductive Call (β ε : Type) where
  | reading
  | claiming
  | resolving
  | storing (b : β)
  | publishing (b : β)
  | restoring (e : ε)
  | finished (result : Except ε β)

namespace Call
variable {ω β ε : Type}

/-- The next step of a call whose resolution, should it come to one, ends as given. A binding that
is stored already stays and is the one published. -/
def advance (resolution : Except ε β) : Conduct (Cell β) (Call β ε)
  | cell, reading =>
    match cell.stored with
    | some b => (cell, finished (.ok b))
    | none => (cell, claiming)
  | cell, claiming =>
    if cell.phase = .unbound then ({ cell with phase := .binding }, resolving) else (cell, reading)
  | cell, resolving =>
    match resolution with
    | .ok b => (cell, storing b)
    | .error e => (cell, restoring e)
  | cell, storing b =>
    let kept := cell.stored.getD b
    ({ cell with stored := some kept }, publishing kept)
  | cell, publishing b => ({ cell with phase := .bound }, finished (.ok b))
  | cell, restoring e => ({ cell with phase := .unbound }, finished (.error e))
  | cell, finished result => (cell, finished result)

def holdsClaim : Call β ε → Bool
  | resolving | storing _ | publishing _ | restoring _ => true
  | reading | claiming | finished _ => false

/-- The next step of a call, which resolves as `resolve` does. No other step has to do with the
world. -/
def work (resolve : ω → Except ε β × ω) : Conduct (Venue ω β) (Call β ε)
  | ⟨cell, world⟩, resolving =>
    let (outcome, world) := resolve world
    let (cell, call) := advance outcome cell resolving
    (⟨cell, world⟩, call)
  | ⟨cell, world⟩, call =>
    let (cell, call) := advance (resolve world).1 cell call
    (⟨cell, world⟩, call)

/-- Calls on a registry before any of them has taken a step. -/
def fresh (v : Venue ω β) : Crowd (Venue ω β) (Call β ε) := ⟨v, fun _ => reading⟩

/-- Calls on a new registry that take their steps in this order, each with a resolution of its
own. -/
def race (resolve : Nat → ω → Except ε β × ω) (world : ω) (schedule : List Nat) :
    Crowd (Venue ω β) (Call β ε) :=
  (fresh { world }).run (fun i => work (resolve i)) schedule

/-- Turns for all of these callers, round after round. -/
def rounds (n : Nat) (callers : List Nat) : List Nat := (List.replicate n callers).flatten

end Call

variable {σ : Type}
open Managed

/-- The cell of a registry that no call is at work on. -/
def Registry.cell (r : Registry σ) : Cell (Binding σ) :=
  ⟨if r.isBound then .bound else .unbound, r.binding⟩

/-- A call that nobody disturbs ends with what the registry answers, and leaves the registry's cell
as the registry is left, in the same world. -/
theorem Call.alone (r : Registry σ) (c : Context) (s : Source) (w : World σ) :
    let after := (fresh ⟨r.cell, w⟩).run (fun _ => work (Registry.establish c s)) (rounds 5 [0])
    after.shared = ⟨(r.bind c s w).2.1.cell, (r.bind c s w).2.2⟩ ∧
      after.position 0 = finished (r.bind c s w).1 := by
  obtain ⟨_ | b⟩ := r
  · rcases h : Registry.establish c s w with ⟨_ | b, w'⟩ <;>
      simp [rounds, List.replicate, fresh, work, advance, Registry.cell, Registry.bind,
        Registry.isBound, h]
  · simp [rounds, List.replicate, fresh, work, advance, Registry.cell, Registry.bind,
      Registry.isBound]

end CallBridge.Bridge
