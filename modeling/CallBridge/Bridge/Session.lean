import CallBridge.Bridge.Sorting

/-!
# Sessions

A session is a process that uses the bridge: its world, and the contexts, local references,
registries and bindings it was given, each known by the number it was given in. `Session.perform`
does one operation; what a run of operations leads to is a fold of it. A failing operation answers
with its failure and gives no new number. An operation that names something the session does not
have, or has dropped, does nothing.
-/

namespace CallBridge.Bridge
open Managed Diagnostic

/-- Where to find a comparator, the object given by the number of a local reference. -/
inductive SourceName where
  | ofClass (className : String) (method : Method)
  | ofObject (reference : Nat) (method : Method)
  deriving DecidableEq, Repr

/-- A binding by its own number, or the one a registry holds. -/
inductive Holder where
  | registry (n : Nat)
  | binding (n : Nat)
  deriving DecidableEq, Repr

/-- A process that uses the bridge. Dropped registries and bindings leave a gap. -/
structure Session (σ : Type) where
  world : World σ
  contexts : Array Context := #[]
  references : Array LocalRef := #[]
  registries : Array (Option (Registry σ)) := #[]
  bindings : Array (Option (Binding σ)) := #[]

/-- What can be done in a session. -/
inductive Operation (σ : Type) where
  | create (classes : List (Class σ))
  | define (machine : Nat) (c : Class σ)
  | inject (machine : Nat) (f : Fault)
  | clearFaults (machine : Nat)
  | enter (thread : Thread) (machine : Nat)
  | ensureAttached (thread : Thread) (machine : Nat)
  | detach (thread : Thread) (machine : Nat)
  | newObject (context : Nat) (className : String)
  | requestHandle (context : Nat)
  | lookup (context : Nat) (source : SourceName)
  | newRegistry
  | dropRegistry (registry : Nat)
  | bind (registry context : Nat) (source : SourceName)
  | resolve (context : Nat) (source : SourceName)
  | dropBinding (binding : Nat)
  | sort (thread : Thread) (registry context : Nat) (source : SourceName) (buffer : Array Int32)
  | sortFresh (thread : Thread) (context : Nat) (source : SourceName) (buffer : Array Int32)
  | sortBound (thread : Thread) (holder : Holder) (buffer : Array Int32)
  | sortAt (thread : Thread) (registry context : Nat) (source : SourceName)
      (address : Option Nat) (count : Int) (buffer : Array Int32)
  | sortOrEnd (reaction : OnFatal) (thread : Thread) (registry context : Nat)
      (source : SourceName) (address : Option Nat) (count : Int) (buffer : Array Int32)
  | invoke (thread : Thread) (holder : Holder) (q : Question)

/-- What an operation answers. -/
inductive Answer (σ : Type) where
  | done
  | failed (e : Failure)
  | absent
  | unbound
  | number (n : Nat)
  | attached (yes : Bool)
  | reference (n : Nat) (r : LocalRef)
  | found (isObject : Bool)
  | bound (b : Binding σ) (again : Bool)
  | resolved (n : Nat) (b : Binding σ)
  | sorted (result : Except Failure Unit) (buffer : Array Int32)
  | order (answer : Int32)

namespace Session
variable {σ : Type}

/-- A process before it has done anything. -/
def start (memory : σ) : Session σ := { world := { memory } }

/-- The source a name stands for. -/
def source? (s : Session σ) : SourceName → Option Source
  | .ofClass className m => some (.ofClass className m)
  | .ofObject n m => s.references[n]?.map fun r => .ofObject r m

def registry? (s : Session σ) (n : Nat) : Option (Registry σ) := s.registries[n]?.join

def binding? (s : Session σ) (n : Nat) : Option (Binding σ) := s.bindings[n]?.join

/-- The binding of a holder: absent if there is no such holder, unbound if it holds none. -/
def held? (s : Session σ) : Holder → Option (Option (Binding σ))
  | .registry n => (s.registry? n).map (·.binding)
  | .binding n => (s.binding? n).map some

def setRegistry (s : Session σ) (n : Nat) (r : Option (Registry σ)) : Session σ :=
  { s with registries := s.registries.setIfInBounds n r }

/-- Do an act and answer with its result. -/
def act {α : Type} (s : Session σ) (x : Act σ α) (answer : α → Session σ → Answer σ × Session σ) :
    Answer σ × Session σ :=
  match x s.world with
  | (.ok a, world) => answer a { s with world }
  | (.error e, world) => (.failed e, { s with world })

/-- Change a runtime, if there is one of this number. -/
def change (s : Session σ) (machine : Nat) (f : World σ → World σ) : Answer σ × Session σ :=
  if machine < s.world.machines.size then (.done, { s with world := f s.world })
  else (.absent, s)

def finish (s : Session σ) (sorted : Sorted σ) : Answer σ × Session σ :=
  (.sorted sorted.result sorted.buffer, { s with world := sorted.memory })

def sortThrough (s : Session σ) (registry context : Nat) (source : SourceName)
    (f : Registry σ → Context → Source → World σ → Sorted σ × Registry σ) :
    Answer σ × Session σ :=
  match s.registry? registry, s.contexts[context]?, s.source? source with
  | some r, some c, some source =>
    let (sorted, r) := f r c source s.world
    (s.setRegistry registry (some r)).finish sorted
  | _, _, _ => (.absent, s)

/-- Do something through a context and a source. -/
def through (s : Session σ) (context : Nat) (source : SourceName)
    (f : Context → Source → Answer σ × Session σ) : Answer σ × Session σ :=
  match s.contexts[context]?, s.source? source with
  | some c, some source => f c source
  | _, _ => (.absent, s)

def perform (s : Session σ) : Operation σ → Answer σ × Session σ
  | .create classes =>
    (.number s.world.machines.size, { s with world := s.world.create classes })
  | .define machine c => s.change machine (·.update machine (·.define c))
  | .inject machine f =>
    s.change machine (·.update machine fun m => { m with faults := m.faults.inject f })
  | .clearFaults machine => s.change machine (·.update machine fun m => { m with faults := {} })
  | .enter thread machine =>
    if machine < s.world.machines.size then
      s.act (enter thread machine) fun c s =>
        (.number s.contexts.size, { s with contexts := s.contexts.push c })
    else (.absent, s)
  | .ensureAttached thread machine =>
    if machine < s.world.machines.size then
      s.act (ensureAttached thread machine) fun _ s =>
        (.attached (s.world.isAttached thread machine), s)
    else (.absent, s)
  | .detach thread machine => s.change machine (·.detach thread machine)
  | .newObject context className =>
    match s.contexts[context]? with
    | some c =>
      s.act (newObject c className) fun r s =>
        (.reference s.references.size r, { s with references := s.references.push r })
    | none => (.absent, s)
  | .requestHandle context =>
    match s.contexts[context]? with
    | some c => s.act (requestHandle c) fun _ s => (.done, s)
    | none => (.absent, s)
  | .lookup context source =>
    s.through context source fun c source =>
      s.act (resolveTarget c source) fun b s =>
        (.found b.holdsObject, { s with world := b.release s.world })
  | .newRegistry =>
    (.number s.registries.size, { s with registries := s.registries.push (some {}) })
  | .dropRegistry registry =>
    match s.registry? registry with
    | some r => (.done, { s.setRegistry registry none with world := r.release s.world })
    | none => (.absent, s)
  | .bind registry context source =>
    s.through context source fun c source =>
      match s.registry? registry with
      | some r =>
        match r.bind c source s.world with
        | (.ok b, r', world) =>
          (.bound b r.isBound, { s.setRegistry registry (some r') with world })
        | (.error e, r', world) =>
          (.failed e, { s.setRegistry registry (some r') with world })
      | none => (.absent, s)
  | .resolve context source =>
    s.through context source fun c source =>
      s.act (resolve c source) fun b s =>
        (.resolved s.bindings.size b, { s with bindings := s.bindings.push (some b) })
  | .dropBinding n =>
    match s.binding? n with
    | some b =>
      (.done, { s with
        bindings := s.bindings.setIfInBounds n none
        world := b.release s.world })
    | none => (.absent, s)
  | .sort thread registry context source buffer =>
    s.sortThrough registry context source fun r c source =>
      r.sort thread c source (.whole buffer) buffer
  | .sortFresh thread context source buffer =>
    s.through context source fun c source =>
      s.finish (sortFresh thread c source (.whole buffer) buffer s.world)
  | .sortBound thread holder buffer =>
    match s.held? holder with
    | some (some b) => s.finish (b.sort thread (.whole buffer) buffer s.world)
    | some none => (.unbound, s)
    | none => (.absent, s)
  | .sortAt thread registry context source address count buffer =>
    s.sortThrough registry context source fun r c source =>
      r.sortAt thread c source address count buffer
  | .sortOrEnd reaction thread registry context source address count buffer =>
    s.sortThrough registry context source fun r c source =>
      r.sortOrEnd reaction thread c source address count buffer
  | .invoke thread holder q =>
    match s.held? holder with
    | some (some b) => s.act (b.invoke thread q) fun answer s => (.order answer, s)
    | some none => (.unbound, s)
    | none => (.absent, s)

/-- Do one operation after the other. -/
def run (s : Session σ) (ops : List (Operation σ)) : Session σ :=
  ops.foldl (fun s op => (s.perform op).2) s

end Session
end CallBridge.Bridge
