import CallBridge.Bridge.Sorting
import CallBridge.CText.Pattern
import CallBridge.Host.Program
import CallBridge.Log.Emitter

/-!
# Workbenches

A workbench is what calls are measured on: a managed runtime, one registry for the static comparator
and one for comparator objects, the pattern texts made so far, and the log, if one is kept. A task
is a program that works at a workbench and may fail; what it did before it failed stays done.
Diagnostics that pass the workbench's threshold and lines of the log go to the host while the task
goes on.
-/

namespace CallBridge.Bench
open Bridge Diagnostic Managed

/-- A runtime with its two registries, the texts made, the log, the threshold of diagnostics and the
number of those that have been announced or passed over. -/
structure Workbench (σ : Type) where
  world : World σ
  statics : Registry σ := {}
  instances : Registry σ := {}
  patterns : CText.PatternTable := {}
  log : Option Log.Emitter := none
  threshold : Level := .standard
  announced : Nat := 0

namespace Workbench
variable {σ : Type}

/-- The number of the runtime in its world. -/
def machine : Nat := 0

/-- A workbench with a runtime of these classes. -/
def ofClasses (classes : List (Class σ)) (memory : σ) : Workbench σ :=
  { world := ({ memory } : World σ).create classes }

def standard : Workbench Unit := ofClasses Class.benchmarks ()

/-- What the runtime counted. -/
def counters (b : Workbench σ) : Counters := b.world.counters machine

/-- Do an act in the world of a workbench. -/
def act {α : Type} (b : Workbench σ) (x : Act σ α) : Except Failure α × Workbench σ :=
  match x b.world with
  | (.ok a, world) => (.ok a, { b with world })
  | (.error e, world) => (.error e, { b with world })

end Workbench

/-- A program that works at a workbench. -/
def Task (σ α : Type) : Type 1 := Workbench σ → Program (Except RunError α × Workbench σ)

namespace Task
variable {σ α β : Type}

instance : Monad (Task σ) where
  pure a := fun b => .done (.ok a, b)
  bind x f := fun b => x b >>= fun
    | (.ok a, b) => f a b
    | (.error e, b) => .done (.error e, b)

def fail (e : RunError) : Task σ α := fun b => .done (.error e, b)

def look (f : Workbench σ → α) : Task σ α := fun b => .done (.ok (f b), b)

def change (f : Workbench σ → Workbench σ) : Task σ Unit := fun b => .done (.ok (), f b)

/-- Ask the host. -/
def ask (r : Request α) : Task σ α := fun b => .ask r fun a => .done (.ok a, b)

/-- Ask the host for memory. -/
def reserve (bytes : Nat) : Task σ Unit := do
  match ← ask (.reserve bytes) with
  | .ok () => return
  | .error e => fail (.memory e)

/-- Do a task and go on with its result, be it a failure. -/
def attempt (x : Task σ α) : Task σ (Except RunError α) := fun b => x b >>= fun
  | (result, b) => .done (.ok result, b)

/-- Report diagnostics to the host, each with the time at which its line is made. -/
def report : List Notice → Task σ Unit
  | [] => return
  | n :: rest => do
    let now ← ask .wallTime
    ask (.report (n.render now.stamp))
    report rest

/-- Announce the diagnostics since the last time that pass the threshold. -/
def announce : Task σ Unit := do
  let notices ← look fun b =>
    Notice.passing b.threshold (b.world.notices.toList.drop b.announced)
  change fun b => { b with announced := b.world.notices.size }
  report notices

/-- Write an entry to a log, which is the workbench's from then on; the host takes its line too. -/
def write (log : Log.Emitter) (entry : Log.Entry) : Task σ Unit := do
  let (entry, log) := log.complete entry
  change ({ · with log := some (log.write entry) })
  match ← ask (.appendLog entry.line) with
  | .ok () => return
  | .error e => fail (.file e)

/-- Do an act in the world. -/
def act (x : Act σ α) : Task σ α := fun b =>
  match b.act x with
  | (.ok a, b) => .done (.ok a, b)
  | (.error e, b) => .done (.error (.bridge e), b)

end Task
end CallBridge.Bench
