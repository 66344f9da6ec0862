import CallBridge.Bridge.Sorting

/-!
# What crossings leave alone

The fabric of a world is what its runtimes are made of, without what they counted. Every act of the
bridge but making, changing and entering a runtime leaves it alone: resolving, binding, asking and
sorting only count, attach threads, write diagnostics and let managed code remember.

`Act.Keeps f` says that an act leaves what `f` shows of a world alone. It is closed under the ways
to put acts together, and `DecisionTree.follow_keeps` carries it over to a whole sort. So it is
enough to know what `f` does not show: the traces of a question (`IgnoresAsking`), or those of a
resolution (`IgnoresResolving`). The fabric shows neither.
-/

namespace CallBridge

/-- A walk leaves alone what every question leaves alone. -/
theorem DecisionTree.follow_keeps {σ ε α ρ τ : Type} {ask : Comparer σ ε α} {f : σ → τ}
    (h : ∀ left right buffer memory, f (ask left right buffer memory).2 = f memory)
    (t : DecisionTree ρ) (buffer : Array α) (memory : σ) :
    f (t.follow ask buffer memory).memory = f memory := by
  induction t generalizing buffer memory with
  | done r => rfl
  | exchange i j next ih => exact ih ..
  | compare left right next ih =>
    have hask := h left right buffer memory
    simp only [follow]
    split
    · next heq =>
      rw [heq] at hask
      rw [ih, hask]
    · next heq =>
      rw [heq] at hask
      exact hask

namespace Managed
variable {σ α β τ : Type}

/-- An act leaves alone what `f` shows of a world, also when it fails. -/
def Act.Keeps (f : World σ → τ) (x : Act σ α) : Prop := ∀ w, f (x w).2 = f w

namespace Act.Keeps
variable {f : World σ → τ}

theorem pure (a : α) : Keeps f (Pure.pure a : Act σ α) := fun _ => rfl

theorem fail (e : Bridge.Failure) : Keeps f (Act.fail e : Act σ α) := fun _ => rfl

theorem look (g : World σ → α) : Keeps f (Act.look g) := fun _ => rfl

theorem change {g : World σ → World σ} (h : ∀ w, f (g w) = f w) : Keeps f (Act.change g) := h

theorem bind {x : Act σ α} {k : α → Act σ β} (hx : Keeps f x) (hk : ∀ a, Keeps f (k a)) :
    Keeps f (x >>= k) := by
  intro w
  have hw := hx w
  rw [Act.bind_eq]
  split
  · next heq =>
    rw [heq] at hw
    rw [hk, hw]
  · next heq =>
    rw [heq] at hw
    exact hw

theorem ite {p : Prop} [Decidable p] {x y : Act σ α} (hx : Keeps f x) (hy : Keeps f y) :
    Keeps f (if p then x else y) := by
  split
  · exact hx
  · exact hy

end Act.Keeps

/-! ### The fabric of a world -/

/-- A runtime without its counts. -/
def Machine.fabric (m : Machine σ) : Machine σ := { m with counters := {} }

namespace World

/-- The runtimes of a world without their counts. -/
def fabric (w : World σ) : Array (Machine σ) := w.machines.map Machine.fabric

/-- How many native calls a runtime has begun. -/
def frames (w : World σ) (id : Nat) : Nat := (w.machines[id]?.map (·.frames)).getD 0

/-- The class names of the objects of a runtime. -/
def objects (w : World σ) (id : Nat) : List String := (w.machines[id]?.map (·.objects)).getD []

/-- The body that a method of a class stands for in a runtime. -/
def body? (w : World σ) (id : Nat) (className : String) (m : Method) : Option (Body σ) :=
  (w.machines[id]?.bind (·.class? className)).bind fun c => (c.find? m false).map (·.body)

theorem fabric_getElem? (w : World σ) (id : Nat) :
    w.fabric[id]? = w.machines[id]?.map Machine.fabric := by
  rw [fabric, Array.getElem?_map]

/-- What does not show the change of a runtime stays the same. -/
theorem read_update (w : World σ) (id : Nat) {f : Machine σ → Machine σ} {β : Type}
    {g : Option (Machine σ) → β} (hg : ∀ m, g (some (f m)) = g (some m)) (id' : Nat) :
    g (w.update id f).machines[id']? = g w.machines[id']? := by
  rw [update, Array.getElem?_modify]
  split
  · cases w.machines[id']? with
    | none => rfl
    | some m => exact hg m
  · rfl

@[simp] theorem fabric_count (w : World σ) (id : Nat) (f : Counters → Counters) :
    (w.count id f).fabric = w.fabric := by
  apply Array.ext_getElem?
  intro i
  rw [fabric_getElem?, fabric_getElem?, count]
  exact w.read_update id (f := (·.count f)) (g := (·.map Machine.fabric)) (fun _ => rfl) i

@[simp] theorem fabric_notify (w : World σ) (severity : Diagnostic.Severity) (event : String)
    (fields : Json) : (w.notify severity event fields).fabric = w.fabric := rfl

variable {w w' : World σ}

theorem lt_of_class {id : Nat} {name : String} {c : Class σ}
    (h : w.machines[id]?.bind (·.class? name) = some c) : id < w.machines.size := by
  obtain ⟨m, hm, -⟩ := Option.bind_eq_some_iff.1 h
  exact (Array.getElem?_eq_some_iff.1 hm).1

theorem size_of_fabric (h : w'.fabric = w.fabric) : w'.machines.size = w.machines.size := by
  simpa only [fabric, Array.size_map] using congrArg Array.size h

/-- What does not show the counts of a runtime can be read off the fabric. -/
theorem read_of_fabric {β : Type} (h : w'.fabric = w.fabric) (id : Nat)
    {g : Option (Machine σ) → β} (hg : ∀ o, g (o.map Machine.fabric) = g o) :
    g w'.machines[id]? = g w.machines[id]? := by
  rw [← hg, ← fabric_getElem?, h, fabric_getElem?, hg]

theorem frames_of_fabric (h : w'.fabric = w.fabric) (id : Nat) : w'.frames id = w.frames id :=
  read_of_fabric h id (g := fun o => (o.map Machine.frames).getD 0) fun o => by cases o <;> rfl

theorem objects_of_fabric (h : w'.fabric = w.fabric) (id : Nat) : w'.objects id = w.objects id :=
  read_of_fabric h id (g := fun o => (o.map Machine.objects).getD []) fun o => by cases o <;> rfl

theorem body?_of_fabric (h : w'.fabric = w.fabric) (id : Nat) (className : String) (m : Method) :
    w'.body? id className m = w.body? id className m := by
  have hclass : w'.machines[id]?.bind (·.class? className) =
      w.machines[id]?.bind (·.class? className) :=
    read_of_fabric h id (g := (·.bind (·.class? className))) fun o => by cases o <;> rfl
  rw [body?, hclass, body?]

theorem faulty_of_fabric (h : w'.fabric = w.fabric) (id : Nat) (f : Fault) :
    w'.faulty id f = w.faulty id f := by
  unfold faulty
  exact read_of_fabric h id (g := (·.any (·.faults.has f))) fun o => by cases o <;> rfl

end World

/-! ### Acts that leave something alone -/

/-- A thread newly attached to a runtime, and counted. -/
def World.tie (w : World σ) (thread : Thread) (id : Nat) : World σ :=
  { w.count id .countAttachment with attached := w.attached ++ [(thread, id)] }

/-- What `f` shows of a world stays the same when a question to a runtime is counted and
answered. -/
structure IgnoresAsking (f : World σ → τ) (id : Nat) : Prop where
  check : ∀ w, f (w.count id .countCheck) = f w
  attachment : ∀ w thread, f (w.tie thread id) = f w
  invocation : ∀ w, f (w.count id .countInvocation) = f w
  memory : ∀ w memory, f { w with memory } = f w

/-- What `f` shows of a world stays the same when the steps of a resolution in a runtime are
counted. -/
structure IgnoresResolving (f : World σ → τ) (id : Nat) : Prop where
  handle : ∀ w, f (w.count id .countHandle) = f w
  lookup : ∀ w, f (w.count id .countLookup) = f w
  promotion : ∀ w, f (w.count id .countPromotion) = f w

theorem ignoresAsking_fabric {id : Nat} : IgnoresAsking (World.fabric (σ := σ)) id where
  check w := World.fabric_count w id _
  attachment w _ := World.fabric_count w id _
  invocation w := World.fabric_count w id _
  memory _ _ := rfl

theorem ignoresResolving_fabric {id : Nat} : IgnoresResolving (World.fabric (σ := σ)) id where
  handle w := World.fabric_count w id _
  lookup w := World.fabric_count w id _
  promotion w := World.fabric_count w id _

open Act World

variable {f : World σ → τ} {id : Nat}

theorem attach_keeps (hf : IgnoresAsking f id) (thread : Thread) :
    Keeps f (attach thread id) := by
  intro w
  unfold attach
  split
  · rfl
  · split
    · rfl
    · exact hf.attachment w thread

theorem ensureAttached_keeps (hf : IgnoresAsking f id) (thread : Thread) :
    Keeps f (ensureAttached thread id) :=
  (Keeps.change hf.check).bind fun _ => attach_keeps hf thread

theorem requestHandle_keeps (c : Context)
    (handle : ∀ w, f (w.count c.machine .countHandle) = f w) : Keeps f (requestHandle c) := by
  refine (Keeps.change handle).bind fun _ => (Keeps.look _).bind fun b => ?_
  exact .ite (.fail _) (.pure _)

theorem findClass_keeps (f : World σ → τ) (id : Nat) (name : String) :
    Keeps f (findClass id name) := by
  intro w
  unfold findClass
  split <;> rfl

theorem findMethod_keeps (hf : IgnoresResolving f id) (className : String) (m : Method)
    (isStatic : Bool) : Keeps f (findMethod id className m isStatic) := by
  refine (findClass_keeps f id className).bind fun c =>
    (Keeps.change hf.lookup).bind fun _ => ?_
  split
  · exact .pure _
  · exact .fail _

theorem classOf_keeps (f : World σ → τ) (c : Context) (r : LocalRef) : Keeps f (classOf c r) := by
  intro w
  unfold classOf
  split
  · rfl
  · split <;> rfl

theorem call_keeps (hf : IgnoresAsking f id) (body : Body σ) (q : Question) :
    Keeps f (call id body q) := by
  refine (Keeps.change hf.invocation).bind fun _ => (Keeps.look _).bind fun b => ?_
  exact .ite (.fail _) fun w => hf.memory w _

end Managed

namespace Bridge
open Managed Act World
variable {σ τ : Type} {f : World σ → τ} {c : Context}

theorem lookup_keeps (hf : IgnoresResolving f c.machine) (s : Source) :
    Keeps f (lookup c s) := by
  cases s with
  | ofClass className m => exact findMethod_keeps hf _ _ _
  | ofObject r m =>
    exact (classOf_keeps f c r).bind fun className => findMethod_keeps hf _ _ _

theorem resolveTarget_keeps (hf : IgnoresResolving f c.machine) (s : Source) :
    Keeps f (resolveTarget c s) :=
  (lookup_keeps hf s).bind fun _ => (Keeps.look _).bind fun _ =>
    (Keeps.change hf.promotion).bind fun _ => .pure _

theorem resolve_keeps (hf : IgnoresResolving f c.machine) (s : Source) :
    Keeps f (resolve c s) :=
  .ite ((requestHandle_keeps c hf.handle).bind fun _ => resolveTarget_keeps hf s) (.fail _)

theorem establish_keeps (hf : IgnoresResolving f c.machine)
    (notify : ∀ w severity event fields, f (w.notify severity event fields) = f w)
    (s : Source) : Keeps f (Registry.establish c s) := by
  intro w
  have h := resolve_keeps hf s w
  unfold Registry.establish
  split <;> next heq =>
    rw [heq] at h
    exact (notify ..).trans h

theorem Registry.bind_keeps (hf : IgnoresResolving f c.machine)
    (notify : ∀ w severity event fields, f (w.notify severity event fields) = f w)
    (r : Registry σ) (s : Source) (w : World σ) : f (r.bind c s w).2.2 = f w := by
  have h := establish_keeps hf notify s w
  unfold bind
  split
  · rfl
  · split <;> next heq =>
      rw [heq] at h
      exact h

namespace Binding
variable (b : Binding σ)

theorem invoke_keeps (hf : IgnoresAsking f b.machine) (thread : Thread) (q : Question) :
    Keeps f (b.invoke thread q) :=
  (ensureAttached_keeps hf thread).bind fun _ => call_keeps hf b.body q

theorem sort_keeps (hf : IgnoresAsking f b.machine) (thread : Thread) (part : Segment)
    (buffer : Array Int32) (w : World σ) : f (b.sort thread part buffer w).memory = f w :=
  DecisionTree.follow_keeps (fun left right buffer w =>
    b.invoke_keeps hf thread (question left right buffer) w) _ buffer w

theorem fabric_release (w : World σ) : (b.release w).fabric = w.fabric := fabric_count w _ _

theorem fabric_sort (thread : Thread) (part : Segment) (buffer : Array Int32) (w : World σ) :
    (b.sort thread part buffer w).memory.fabric = w.fabric :=
  b.sort_keeps ignoresAsking_fabric thread part buffer w

end Binding

namespace Registry
variable (r : Registry σ)

theorem fabric_release (w : World σ) : (r.release w).fabric = w.fabric := by
  unfold release
  split
  · exact Binding.fabric_release _ w
  · rfl

theorem fabric_bind (c : Context) (s : Source) (w : World σ) :
    (r.bind c s w).2.2.fabric = w.fabric :=
  r.bind_keeps ignoresResolving_fabric fabric_notify s w

end Registry

theorem fabric_sortFresh (thread : Thread) (c : Context) (s : Source) (part : Segment)
    (buffer : Array Int32) (w : World σ) :
    (sortFresh thread c s part buffer w).memory.fabric = w.fabric := by
  have h := resolve_keeps (c := c) ignoresResolving_fabric s w
  unfold sortFresh sortFreshWith
  split
  · next b w₁ heq =>
    rw [heq] at h
    exact (b.fabric_release _).trans ((b.fabric_sort thread part buffer w₁).trans h)
  · next heq =>
    rw [heq] at h
    exact h

end Bridge
end CallBridge
