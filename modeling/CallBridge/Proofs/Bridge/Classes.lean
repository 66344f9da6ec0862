import CallBridge.Proofs.Bridge.Requests

/-!
# The newest definition of a class

Of all operations only making a runtime and defining a class touch the classes of a runtime
(`classes_perform`). So from one definition of a class to the next, its name stands for the class
as it was defined (`Newest.class?_eq`).
-/

namespace CallBridge.Managed
variable {σ : Type}

theorem Machine.class?_define (m : Machine σ) (k : Class σ) (name : String) :
    (m.define k).class? name = if k.name = name then some k else m.class? name := by
  rw [class?, define, List.find?_append]
  by_cases h : k.name = name
  · have hforgotten : (m.classes.filter (·.name ≠ k.name)).find? (·.name = name) = none := by
      refine List.find?_eq_none.2 fun c hc hname => ?_
      have hother : c.name ≠ k.name := of_decide_eq_true (List.mem_filter.1 hc).2
      exact hother ((of_decide_eq_true hname).trans h.symm)
    rw [hforgotten, if_pos h]
    simp [h]
  · have hkept : (m.classes.filter (·.name ≠ k.name)).find? (·.name = name) = m.class? name := by
      rw [List.find?_filter]
      refine congrArg (m.classes.find? ·) (funext fun c => ?_)
      by_cases hname : c.name = name
      · simp [hname, Ne.symm h]
      · simp [hname]
    rw [hkept, if_neg h]
    simp [h]

namespace World
variable {w w' : World σ}

/-- The classes of a runtime. -/
def classes (w : World σ) (id : Nat) : Option (List (Class σ)) := w.machines[id]?.map (·.classes)

theorem class?_of_classes {id : Nat} (h : w'.classes id = w.classes id) (name : String) :
    w'.class? id name = w.class? id name := by
  have hclass : ∀ w : World σ,
      w.class? id name = (w.classes id).bind (·.find? (·.name = name)) := by
    intro w
    rw [class?, classes]
    cases w.machines[id]? <;> rfl
  rw [hclass, hclass, h]

theorem classes_of_fabric (h : w'.fabric = w.fabric) : w'.classes = w.classes := by
  funext id
  exact read_of_fabric h id (g := (·.map Machine.classes)) fun o => by cases o <;> rfl

theorem classes_update (w : World σ) (machine : Nat) {f : Machine σ → Machine σ}
    (hf : ∀ m, (f m).classes = m.classes) : (w.update machine f).classes = w.classes := by
  funext id
  exact w.read_update machine (g := (·.map Machine.classes)) (fun m => congrArg some (hf m)) id

end World

theorem Act.Keeps.classes {α : Type} {x : Act σ α} (h : x.Keeps World.fabric) :
    x.Keeps World.classes := fun w => World.classes_of_fabric (h w)

theorem enter_keeps_classes (thread : Thread) (id : Nat) :
    (enter thread id : Act σ Context).Keeps World.classes := by
  refine (attach_keeps ignoresAsking_fabric thread).classes.bind fun _ =>
    (Act.Keeps.change fun w => ?_).bind fun _ => .look _
  exact w.classes_update id fun _ => rfl

theorem newObject_keeps_classes (c : Context) (className : String) :
    (newObject c className : Act σ LocalRef).Keeps World.classes := by
  refine (findClass_keeps World.classes c.machine className).bind fun _ =>
    (Act.Keeps.look _).bind fun _ => (Act.Keeps.change fun w => ?_).bind fun _ => .pure _
  exact w.classes_update c.machine fun _ => rfl

end CallBridge.Managed

namespace CallBridge.Bridge
open Managed

variable {σ : Type}

namespace Session

/-- Only making a runtime and defining a class touch classes. -/
theorem classes_perform (s : Session σ) {op : Operation σ} (hcreate : ∀ ks, op ≠ .create ks)
    (hdefine : ∀ machine k, op ≠ .define machine k) :
    (s.perform op).2.world.classes = s.world.classes := by
  rcases still_or_builds s op with h | h
  · exact World.classes_of_fabric h.fabric
  cases h with
  | create ks => exact absurd rfl (hcreate ks)
  | define id k => exact absurd rfl (hdefine id k)
  | inject id f =>
    refine of_change (P := fun s' => s'.world.classes = s.world.classes) (fun _ => ?_) rfl
    exact World.classes_update _ _ fun _ => rfl
  | clearFaults id =>
    refine of_change (P := fun s' => s'.world.classes = s.world.classes) (fun _ => ?_) rfl
    exact World.classes_update _ _ fun _ => rfl
  | enter thread id =>
    simp only [perform]
    split
    · exact act_keeps (enter_keeps_classes thread id) fun _ _ _ h => h
    · rfl
  | newObject e className =>
    simp only [perform]
    split
    · exact act_keeps (newObject_keeps_classes _ className) fun _ _ _ h => h
    · rfl

variable {s : Session σ}

/-- A name goes on standing for its class until a class of this name is defined in the runtime. -/
theorem class?_perform {id : Nat} {k : Class σ} (h : s.world.class? id k.name = some k)
    {op : Operation σ} (hop : ∀ k', op = .define id k' → k'.name ≠ k.name) :
    (s.perform op).2.world.class? id k.name = some k := by
  obtain ⟨m, hm, hk⟩ := Option.bind_eq_some_iff.1 h
  cases op with
  | create ks =>
    have hid := (Array.getElem?_eq_some_iff.1 hm).1
    have hkept : (s.world.create ks).machines[id]? = some m := by
      rw [World.create, Array.getElem?_push, if_neg (Nat.ne_of_lt hid), hm]
    simp only [perform, World.class?, hkept]
    exact hk
  | define machine k' =>
    refine of_change (P := fun s' => s'.world.class? id k.name = some k) (fun _ => ?_) h
    simp only [World.class?, World.update, Array.getElem?_modify]
    by_cases hid : machine = id
    · subst hid
      rw [if_pos rfl, hm, Option.map_some, Option.bind_some, Machine.class?_define,
        if_neg (hop k' rfl)]
      exact hk
    · rw [if_neg hid]
      exact h
  | _ =>
    refine (World.class?_of_classes (congrFun (classes_perform s ?_ ?_) id) k.name).trans h
    · intro ks hks
      cases hks
    · intro machine k' hk'
      cases hk'

theorem class?_run {id : Nat} {k : Class σ} (h : s.world.class? id k.name = some k)
    {ops : List (Operation σ)} (hops : ∀ k', .define id k' ∈ ops → k'.name ≠ k.name) :
    (s.run ops).world.class? id k.name = some k := by
  induction ops generalizing s with
  | nil => exact h
  | cons op ops ih =>
    rw [run_cons]
    refine ih (class?_perform h fun k' hk' => ?_) fun k' hk' => hops k' (List.mem_cons_of_mem _ hk')
    exact hops k' (hk' ▸ List.mem_cons_self)

/-- In a run, the class is the newest of its name in a runtime: it was defined there, or came with
the runtime, and no class of its name was defined there since. -/
inductive Newest (s : Session σ) (ops : List (Operation σ)) (id : Nat) (k : Class σ) : Prop
  | defined {before after} (h : ops = before ++ .define id k :: after)
      (hid : id < (s.run before).world.machines.size)
      (hlast : ∀ k', .define id k' ∈ after → k'.name ≠ k.name)
  | created {before ks after} (h : ops = before ++ .create ks :: after)
      (hid : id = (s.run before).world.machines.size)
      (hk : ks.find? (·.name = k.name) = some k)
      (hlast : ∀ k', .define id k' ∈ after → k'.name ≠ k.name)

theorem Newest.class?_eq {ops : List (Operation σ)} {id : Nat} {k : Class σ}
    (h : Newest s ops id k) : (s.run ops).world.class? id k.name = some k := by
  cases h with
  | @defined before after h hid hlast =>
    rw [h, run_append, run_cons]
    refine class?_run ?_ hlast
    simp only [perform, change, if_pos hid, World.class?, World.update, Array.getElem?_modify,
      if_true, Array.getElem?_eq_getElem hid, Option.map_some, Option.bind_some]
    rw [Machine.class?_define, if_pos rfl]
  | @created before ks after h hid hk hlast =>
    rw [h, run_append, run_cons]
    refine class?_run ?_ hlast
    simp only [perform, World.class?, World.create, hid, Array.getElem?_push_size,
      Option.bind_some]
    exact hk

end Session
end CallBridge.Bridge
