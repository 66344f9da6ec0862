import CallBridge.Proofs.Bridge.Operations
import Mathlib.Data.List.Induction

/-!
# What a session adds to

A session only ever adds contexts, references, frames and objects, and only two operations do:
entering a runtime and making an object (`perform_cases`). So the frame of a context says which of
its runtime's contexts it is (`Framed`), and a reference goes on naming the object it was made for
(`Given`).
-/

namespace CallBridge.Bridge
open Managed

variable {σ : Type}

/-! ### Entering a runtime and making an object -/

theorem frames_update (w : World σ) {machine : Nat} (h : machine < w.machines.size) (id : Nat) :
    (w.update machine fun m => { m with frames := m.frames + 1 }).frames id =
      w.frames id + if id = machine then 1 else 0 := by
  simp only [World.frames, World.update, Array.getElem?_modify]
  by_cases hid : id = machine
  · subst hid
    simp [Array.getElem?_eq_getElem h]
  · rw [if_neg (Ne.symm hid), if_neg hid, Nat.add_zero]

theorem objects_update (w : World σ) {machine : Nat} (h : machine < w.machines.size)
    (className : String) (id : Nat) :
    (w.update machine fun m => { m with objects := m.objects ++ [className] }).objects id =
      w.objects id ++ if id = machine then [className] else [] := by
  simp only [World.objects, World.update, Array.getElem?_modify]
  by_cases hid : id = machine
  · subst hid
    simp [Array.getElem?_eq_getElem h]
  · rw [if_neg (Ne.symm hid), if_neg hid, List.append_nil]

theorem frames_update_of_same (w : World σ) (machine : Nat) {f : Machine σ → Machine σ}
    (hf : ∀ m, (f m).frames = m.frames) (id : Nat) : (w.update machine f).frames id = w.frames id :=
  w.read_update machine (g := fun o => (o.map Machine.frames).getD 0) hf id

theorem objects_update_of_same (w : World σ) (machine : Nat) {f : Machine σ → Machine σ}
    (hf : ∀ m, (f m).objects = m.objects) (id : Nat) :
    (w.update machine f).objects id = w.objects id :=
  w.read_update machine (g := fun o => (o.map Machine.objects).getD []) hf id

theorem enter_cases (thread : Thread) {machine : Nat} (w : World σ)
    (h : machine < w.machines.size) :
    (∃ e, enter thread machine w = (.error e, w)) ∨
      ∃ w', enter thread machine w = (.ok ⟨machine, w.frames machine + 1⟩, w') ∧
        (∀ id, w'.frames id = w.frames id + if id = machine then 1 else 0) ∧
        ∀ id, w'.objects id = w.objects id := by
  have hw : (attach thread machine w).2.fabric = w.fabric :=
    attach_keeps ignoresAsking_fabric thread w
  rcases ha : attach thread machine w with ⟨e | u, w₁⟩ <;> rw [ha] at hw
  · have hsame : w₁ = w := by
      unfold attach at ha
      split at ha
      · exact (congrArg Prod.snd ha).symm
      · split at ha <;> simp at ha
    exact .inl ⟨e, by rw [enter, Act.bind_eq, ha, hsame]⟩
  · have hsize : machine < w₁.machines.size := World.size_of_fabric hw ▸ h
    have hframes : ∀ id, (w₁.update machine fun m => { m with frames := m.frames + 1 }).frames id =
        w.frames id + if id = machine then 1 else 0 := by
      intro id
      rw [frames_update w₁ hsize, World.frames_of_fabric hw]
    refine .inr ⟨w₁.update machine fun m => { m with frames := m.frames + 1 }, ?_, hframes, ?_⟩
    · have hm := hframes machine
      rw [if_pos rfl] at hm
      rw [← hm, enter, Act.bind_eq, ha]
      rfl
    · intro id
      rw [← World.objects_of_fabric hw id]
      refine objects_update_of_same w₁ machine (fun _ => ?_) id
      rfl

theorem newObject_cases (c : Context) (className : String) (w : World σ) :
    (∃ e, newObject c className w = (.error e, w)) ∨
      ∃ w', newObject c className w = (.ok ⟨(w.objects c.machine).length, c.frame⟩, w') ∧
        (∀ id, w'.frames id = w.frames id) ∧
        ∀ id, w'.objects id = w.objects id ++ if id = c.machine then [className] else [] := by
  unfold newObject
  rw [Act.bind_eq, findClass]
  cases hf : w.machines[c.machine]?.bind (·.class? className) with
  | none => exact .inl ⟨_, rfl⟩
  | some found =>
    have hsize : c.machine < w.machines.size := World.lt_of_class hf
    have hlen : (w.machines[c.machine]?.map (·.objects.length)).getD 0 =
        (w.objects c.machine).length := by
      unfold World.objects
      cases w.machines[c.machine]? <;> rfl
    refine .inr ⟨w.update c.machine fun m => { m with objects := m.objects ++ [className] },
      by rw [← hlen]; rfl, ?_, objects_update w hsize className⟩
    exact frames_update_of_same w c.machine fun _ => rfl

namespace Session
variable {s s' : Session σ}

theorem run_append (s : Session σ) (ops ops' : List (Operation σ)) :
    s.run (ops ++ ops') = (s.run ops).run ops' := List.foldl_append

theorem run_cons (s : Session σ) (op : Operation σ) (ops : List (Operation σ)) :
    s.run (op :: ops) = (s.perform op).2.run ops := rfl

theorem run_induction {Keeps : Session σ → Prop} (start : Keeps s)
    (step : ∀ s op, Keeps s → Keeps (s.perform op).2) (ops : List (Operation σ)) :
    Keeps (s.run ops) := by
  induction ops generalizing s with
  | nil => exact start
  | cons op ops ih => exact ih (step s op start)

/-! ### One operation -/

/-- Nothing was added: contexts, references, frames and objects are the same. -/
structure Quiet (s s' : Session σ) : Prop where
  contexts : s'.contexts = s.contexts
  references : s'.references = s.references
  frames : ∀ id, s'.world.frames id = s.world.frames id
  objects : ∀ id, s'.world.objects id = s.world.objects id

theorem Quiet.refl (s : Session σ) : Quiet s s := ⟨rfl, rfl, fun _ => rfl, fun _ => rfl⟩

/-- Contexts and references are the same, and so is the fabric. -/
structure Still (s s' : Session σ) : Prop where
  contexts : s'.contexts = s.contexts
  references : s'.references = s.references
  fabric : s'.world.fabric = s.world.fabric

/-- The operations that make a runtime, a context or an object, or change what a runtime is made
of. -/
inductive Builds : Operation σ → Prop
  | create (ks : List (Class σ)) : Builds (.create ks)
  | define (id : Nat) (k : Class σ) : Builds (.define id k)
  | inject (id : Nat) (f : Fault) : Builds (.inject id f)
  | clearFaults (id : Nat) : Builds (.clearFaults id)
  | enter (thread : Thread) (id : Nat) : Builds (.enter thread id)
  | newObject (e : Nat) (className : String) : Builds (.newObject e className)

theorem Still.act {α : Type} {x : Act σ α} (hx : x.Keeps World.fabric)
    {answer : α → Session σ → Answer σ × Session σ}
    (h : ∀ a w, w.fabric = s.world.fabric → Still s (answer a { s with world := w }).2) :
    Still s (s.act x answer).2 := by
  have hw := hx s.world
  refine of_act (P := Still s) (fun a w heq => ?_) fun e w heq => ?_ <;> rw [heq] at hw
  · exact h a w hw
  · exact ⟨rfl, rfl, hw⟩

theorem Acts.still_or {op : Operation σ} {α : Type} {x : Act σ α}
    {answer : α → Session σ → Answer σ × Session σ} (h : Acts s op x answer) :
    Still s (s.act x answer).2 ∨ Builds op := by
  cases h with
  | @enter thread id => exact .inr (.enter thread id)
  | @newObject e _ className => exact .inr (.newObject e className)
  | @ensureAttached thread id =>
    exact .inl (.act (ensureAttached_keeps ignoresAsking_fabric thread)
      fun _ _ hw => ⟨rfl, rfl, hw⟩)
  | @requestHandle e c =>
    exact .inl (.act (requestHandle_keeps c fun w => World.fabric_count w _ _)
      fun _ _ hw => ⟨rfl, rfl, hw⟩)
  | @lookup e name c source =>
    exact .inl (.act (resolveTarget_keeps ignoresResolving_fabric source)
      fun b w hw => ⟨rfl, rfl, (b.fabric_release w).trans hw⟩)
  | @resolve e name c source =>
    exact .inl (.act (resolve_keeps ignoresResolving_fabric source) fun _ _ hw => ⟨rfl, rfl, hw⟩)
  | @invoke thread holder q b =>
    exact .inl (.act (b.invoke_keeps ignoresAsking_fabric thread q) fun _ _ hw => ⟨rfl, rfl, hw⟩)

/-- All other operations only count, attach threads, write diagnostics and let managed code
remember. -/
theorem still_or_builds (s : Session σ) (op : Operation σ) :
    Still s (s.perform op).2 ∨ Builds op := by
  have h := s.effect op
  generalize s.perform op = after at h ⊢
  cases h with
  | none => exact .inl ⟨rfl, rfl, rfl⟩
  | create ks => exact .inr (.create ks)
  | change h =>
    cases h with
    | define _ k => exact .inr (.define _ k)
    | inject _ f => exact .inr (.inject _ f)
    | clearFaults => exact .inr (.clearFaults _)
    | detach => exact .inl ⟨rfl, rfl, rfl⟩
  | act h => exact h.still_or
  | newRegistry => exact .inl ⟨rfl, rfl, rfl⟩
  | @dropRegistry n r => exact .inl ⟨rfl, rfl, r.fabric_release s.world⟩
  | @dropBinding n b => exact .inl ⟨rfl, rfl, b.fabric_release s.world⟩
  | @request n e name r c source q =>
    exact .inl ⟨rfl, rfl, (q.fabric_conclude ..).trans (r.fabric_bind c source s.world)⟩
  | @sortFresh thread e name buffer c source =>
    exact .inl ⟨rfl, rfl, fabric_sortFresh thread c source (.whole buffer) buffer s.world⟩
  | @sortBound thread holder buffer b =>
    exact .inl ⟨rfl, rfl, b.fabric_sort thread (.whole buffer) buffer s.world⟩

theorem Still.quiet (h : Still s s') : Quiet s s' :=
  ⟨h.contexts, h.references, World.frames_of_fabric h.fabric, World.objects_of_fabric h.fabric⟩

theorem Quiet.change {machine : Nat} {f : Machine σ → Machine σ}
    (hf : ∀ m, (f m).frames = m.frames) (ho : ∀ m, (f m).objects = m.objects) :
    Quiet s (s.change machine (·.update machine f)).2 := by
  unfold Session.change
  split
  · exact ⟨rfl, rfl, frames_update_of_same s.world machine hf,
      objects_update_of_same s.world machine ho⟩
  · exact .refl s

theorem Quiet.create (s : Session σ) (classes : List (Class σ)) :
    Quiet s (s.perform (.create classes)).2 := by
  refine ⟨rfl, rfl, fun id => ?_, fun id => ?_⟩
  · simp only [perform, World.create, World.frames, Array.getElem?_push]
    split
    · next h => simp [h]
    · rfl
  · simp only [perform, World.create, World.objects, Array.getElem?_push]
    split
    · next h => simp [h]
    · rfl

/-- A runtime was entered: there is one more context, of the next frame. -/
structure Entered (s s' : Session σ) (machine : Nat) : Prop where
  contexts : s'.contexts = s.contexts.push ⟨machine, s.world.frames machine + 1⟩
  references : s'.references = s.references
  frames : ∀ id, s'.world.frames id = s.world.frames id + if id = machine then 1 else 0
  objects : ∀ id, s'.world.objects id = s.world.objects id

/-- An object was made through a context: its runtime has one more object, and there is one more
reference, to this object and good for the frame of the context. -/
structure Added (s s' : Session σ) (c : Context) (className : String) : Prop where
  contexts : s'.contexts = s.contexts
  references : s'.references =
    s.references.push ⟨(s.world.objects c.machine).length, c.frame⟩
  frames : ∀ id, s'.world.frames id = s.world.frames id
  objects : ∀ id, s'.world.objects id =
    s.world.objects id ++ if id = c.machine then [className] else []

theorem entered_or_quiet (s : Session σ) (thread : Thread) (machine : Nat) :
    Quiet s (s.perform (.enter thread machine)).2 ∨
      Entered s (s.perform (.enter thread machine)).2 machine := by
  simp only [perform]
  split
  · next hm =>
    rcases enter_cases thread s.world hm with ⟨e, h⟩ | ⟨w, h, hframes, hobjects⟩
    · refine .inl ?_
      rw [act, h]
      exact .refl s
    · refine .inr ?_
      rw [act, h]
      exact ⟨rfl, rfl, hframes, hobjects⟩
  · exact .inl (.refl s)

theorem added_or_quiet (s : Session σ) (context : Nat) (className : String) :
    (Quiet s (s.perform (.newObject context className)).2 ∧
      ∀ n r, (s.perform (.newObject context className)).1 ≠ .reference n r) ∨
      ∃ c, s.contexts[context]? = some c ∧
        Added s (s.perform (.newObject context className)).2 c className ∧
        (s.perform (.newObject context className)).1 = .reference s.references.size
          ⟨(s.world.objects c.machine).length, c.frame⟩ := by
  simp only [perform]
  split
  · next c hc =>
    rcases newObject_cases c className s.world with ⟨e, h⟩ | ⟨w, h, hframes, hobjects⟩
    · refine .inl ?_
      rw [act, h]
      exact ⟨.refl s, fun n r h => by cases h⟩
    · refine .inr ⟨c, hc, ?_, ?_⟩ <;> rw [act, h]
      exact ⟨rfl, rfl, hframes, hobjects⟩
  · exact .inl ⟨.refl s, fun n r h => by cases h⟩

theorem perform_cases (s : Session σ) (op : Operation σ) :
    Quiet s (s.perform op).2 ∨ (∃ machine, Entered s (s.perform op).2 machine) ∨
      ∃ context className c, op = .newObject context className ∧
        s.contexts[context]? = some c ∧ Added s (s.perform op).2 c className ∧
        (s.perform op).1 = .reference s.references.size
          ⟨(s.world.objects c.machine).length, c.frame⟩ := by
  rcases still_or_builds s op with h | h
  · exact .inl h.quiet
  cases h with
  | create ks => exact .inl (.create s ks)
  | define id k => exact .inl (.change (fun _ => rfl) fun _ => rfl)
  | inject id f => exact .inl (.change (fun _ => rfl) fun _ => rfl)
  | clearFaults id => exact .inl (.change (fun _ => rfl) fun _ => rfl)
  | enter thread id =>
    rcases entered_or_quiet s thread id with h | h
    · exact .inl h
    · exact .inr (.inl ⟨id, h⟩)
  | newObject e className =>
    rcases added_or_quiet s e className with ⟨h, -⟩ | ⟨c, hc, h, ha⟩
    · exact .inl h
    · exact .inr (.inr ⟨e, className, c, rfl, hc, h, ha⟩)

/-! ### Frames -/

/-- How many contexts a runtime has given, up to the context numbered `e`. -/
def place (s : Session σ) (machine e : Nat) : Nat :=
  (s.contexts.toList.take (e + 1)).countP (·.machine = machine)

/-- Frames count the contexts of a runtime. -/
structure Framed (s : Session σ) : Prop where
  frames : ∀ id, s.world.frames id = s.contexts.toList.countP (·.machine = id)
  frame : ∀ e c, s.contexts[e]? = some c → c.frame = s.place c.machine e

theorem Framed.start (memory : σ) : Framed (start memory) :=
  ⟨fun _ => rfl, fun e c h => by simp [Session.start] at h⟩

theorem Framed.of_contexts (h : Framed s) (hc : s'.contexts = s.contexts)
    (hf : ∀ id, s'.world.frames id = s.world.frames id) : Framed s' := by
  refine ⟨fun id => ?_, fun e c he => ?_⟩
  · rw [hf, hc, h.frames]
  · rw [hc] at he
    rw [place, hc]
    exact h.frame e c he

theorem Framed.entered {machine : Nat} (h : Framed s) (he : Entered s s' machine) : Framed s' := by
  refine ⟨fun id => ?_, fun e c hc => ?_⟩
  · rw [he.frames, he.contexts, h.frames, Array.toList_push, List.countP_append,
      List.countP_singleton]
    simp [eq_comm]
  · rw [he.contexts, Array.getElem?_push] at hc
    rw [place, he.contexts, Array.toList_push]
    split at hc
    · next hsize =>
      obtain rfl := Option.some.inj hc
      rw [List.take_of_length_le (by simp [hsize]), List.countP_append, ← h.frames]
      simp
    · have hlt : e < s.contexts.size := (Array.getElem?_eq_some_iff.1 hc).1
      rw [List.take_append_of_le_length (by simpa using Nat.succ_le_of_lt hlt)]
      exact h.frame e c hc

theorem Framed.step (h : Framed s) (op : Operation σ) : Framed (s.perform op).2 := by
  rcases perform_cases s op with hq | ⟨machine, he⟩ | ⟨_, _, _, -, -, ha, -⟩
  · exact h.of_contexts hq.contexts hq.frames
  · exact h.entered he
  · exact h.of_contexts ha.contexts ha.frames

theorem framed_run (memory : σ) (ops : List (Operation σ)) : Framed ((start memory).run ops) :=
  run_induction (.start memory) (fun _ op h => h.step op) ops

theorem place_lt {e e' : Nat} {c : Context} (h : e < e') (hc : s.contexts[e']? = some c) :
    s.place c.machine e < s.place c.machine e' := by
  have hlist : s.contexts.toList[e']? = some c := by rw [Array.getElem?_toList, hc]
  have hle : (s.contexts.toList.take (e + 1)).countP (·.machine = c.machine) ≤
      (s.contexts.toList.take e').countP (·.machine = c.machine) :=
    (List.take_sublist_take_left h).countP_le
  have hself : (s.contexts.toList.take (e' + 1)).countP (·.machine = c.machine) =
      (s.contexts.toList.take e').countP (·.machine = c.machine) + 1 := by
    rw [List.take_add_one, hlist, List.countP_append]
    simp
  unfold place
  omega

/-- A runtime gives no two contexts the same frame. -/
theorem place_inj {e e' : Nat} {c c' : Context} (hc : s.contexts[e]? = some c)
    (hc' : s.contexts[e']? = some c') (hm : c'.machine = c.machine)
    (h : s.place c'.machine e' = s.place c.machine e) : e' = e := by
  rcases Nat.lt_trichotomy e' e with hlt | heq | hgt
  · have := place_lt hlt hc
    rw [hm] at h
    omega
  · exact heq
  · have := place_lt hgt hc'
    rw [← hm] at h
    omega

/-! ### References -/

/-- Reference `n` names an object of a class, made through the context numbered `e`, and is good for
the frame of this context. -/
def Given (s : Session σ) (n e : Nat) (className : String) : Prop :=
  ∃ c r, s.contexts[e]? = some c ∧ s.references[n]? = some r ∧ r.frame = c.frame ∧
    (s.world.objects c.machine)[r.object]? = some className

/-- Contexts, references and objects of before are still there. -/
structure Grows (s s' : Session σ) : Prop where
  contexts : ∀ (e : Nat) (c : Context), s.contexts[e]? = some c → s'.contexts[e]? = some c
  references : ∀ (n : Nat) (r : LocalRef), s.references[n]? = some r → s'.references[n]? = some r
  objects : ∀ (id k : Nat) (name : String), (s.world.objects id)[k]? = some name →
    (s'.world.objects id)[k]? = some name

theorem grows_perform (s : Session σ) (op : Operation σ) : Grows s (s.perform op).2 := by
  have hpush : ∀ {α : Type} {xs : Array α} {i : Nat} {x y : α}, xs[i]? = some x →
      (xs.push y)[i]? = some x := by
    intro α xs i x y h
    obtain ⟨hlt, rfl⟩ := Array.getElem?_eq_some_iff.1 h
    rw [Array.getElem?_push_lt hlt]
  rcases perform_cases s op with hq | ⟨machine, he⟩ | ⟨_, _, c, -, -, ha, -⟩
  · refine ⟨fun _ _ h => ?_, fun _ _ h => ?_, fun _ _ _ h => ?_⟩
    · rwa [hq.contexts]
    · rwa [hq.references]
    · rwa [hq.objects]
  · refine ⟨fun _ _ h => ?_, fun _ _ h => ?_, fun _ _ _ h => ?_⟩
    · rw [he.contexts]
      exact hpush h
    · rwa [he.references]
    · rwa [he.objects]
  · refine ⟨fun _ _ h => ?_, fun _ _ h => ?_, fun _ _ _ h => ?_⟩
    · rwa [ha.contexts]
    · rw [ha.references]
      exact hpush h
    · rw [ha.objects, List.getElem?_append_left (List.getElem?_eq_some_iff.1 h).1]
      exact h

theorem Given.step {n e : Nat} {className : String} (h : Given s n e className)
    (op : Operation σ) : Given (s.perform op).2 n e className := by
  obtain ⟨c, r, hc, hr, hf, ho⟩ := h
  have hgrows := grows_perform s op
  exact ⟨c, r, hgrows.contexts e c hc, hgrows.references n r hr, hf, hgrows.objects _ _ _ ho⟩

/-- In this run, reference `n` was answered to the making of an object of a class through the
context numbered `e`. -/
def Made (s : Session σ) (ops : List (Operation σ)) (n e : Nat) (className : String) : Prop :=
  ∃ before after r, ops = before ++ .newObject e className :: after ∧
    ((s.run before).perform (.newObject e className)).1 = .reference n r

theorem Added.given {c : Context} {className : String} {e : Nat} (h : Added s s' c className)
    (hc : s.contexts[e]? = some c) : Given s' s.references.size e className := by
  refine ⟨c, ⟨(s.world.objects c.machine).length, c.frame⟩, ?_, ?_, rfl, ?_⟩
  · rwa [h.contexts]
  · rw [h.references, Array.getElem?_push_size]
  · rw [h.objects, if_pos rfl]
    simp

theorem Made.given {ops : List (Operation σ)} {n e : Nat} {className : String}
    (h : Made s ops n e className) : Given (s.run ops) n e className := by
  obtain ⟨before, after, r, rfl, ha⟩ := h
  rw [run_append, run_cons]
  refine @run_induction _ _ (fun s => Given s n e className) ?_ (fun _ op h => h.step op) after
  rcases added_or_quiet (s.run before) e className with ⟨-, hno⟩ | ⟨c, hc, hadd, hans⟩
  · exact absurd ha (hno n r)
  · rw [hans] at ha
    obtain ⟨rfl, -⟩ := Answer.reference.inj ha
    exact hadd.given hc

theorem Made.append {ops : List (Operation σ)} {n e : Nat} {className : String}
    (h : Made s ops n e className) (ops' : List (Operation σ)) :
    Made s (ops ++ ops') n e className := by
  obtain ⟨before, after, r, rfl, ha⟩ := h
  exact ⟨before, after ++ ops', r, by simp, ha⟩

/-- Every reference was made in the run it is found in. -/
theorem exists_made (memory : σ) (ops : List (Operation σ)) {n : Nat}
    (h : n < ((start memory).run ops).references.size) :
    ∃ e className, Made (start memory) ops n e className := by
  induction ops using List.reverseRecOn with
  | nil => simp [run, start] at h
  | append_singleton ops op ih =>
    by_cases hn : n < ((start memory).run ops).references.size
    · obtain ⟨e, className, hmade⟩ := ih hn
      exact ⟨e, className, hmade.append [op]⟩
    · rw [run_append, run_cons] at h
      rcases perform_cases ((start memory).run ops) op with
        hq | ⟨machine, he⟩ | ⟨e, className, c, rfl, -, ha, hans⟩
      · exact absurd (hq.references ▸ h) hn
      · exact absurd (he.references ▸ h) hn
      · obtain rfl : n = ((start memory).run ops).references.size := by
          have hsize : n < ((start memory).run ops).references.size + 1 := by
            rw [← Array.size_push]
            exact ha.references ▸ h
          omega
        exact ⟨e, className, ops, [], _, rfl, hans⟩

end Session
end CallBridge.Bridge
