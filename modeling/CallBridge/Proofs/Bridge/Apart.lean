import CallBridge.Proofs.Bridge.Sites

/-!
# Runtimes keep apart

What there is of a runtime is its state and the threads attached to it (`World.part`). Of all
runtimes, an operation touches only the one it works on, whether it succeeds or fails
(`runtimes_apart`). A binding works on the runtime that it was resolved in, since each binding that
a session holds was resolved by an operation of the run (`exists_obtains`). So who sorts through a
registry that is bound in another runtime touches nothing of his own.
-/

namespace CallBridge.Managed
variable {σ : Type} {id id' : Nat}

namespace World

/-- The threads attached to a runtime. -/
def attachedTo (w : World σ) (id : Nat) : List Thread :=
  (w.attached.filter (·.2 = id)).map (·.1)

/-- What there is of a runtime: its state and the threads attached to it. -/
def part (w : World σ) (id : Nat) : Option (Machine σ) × List Thread :=
  (w.machines[id]?, w.attachedTo id)

theorem part_update_of_ne (h : id ≠ id') (w : World σ) (f : Machine σ → Machine σ) :
    (w.update id f).part id' = w.part id' := by
  have hmachine : (w.update id f).machines[id']? = w.machines[id']? := by
    rw [update, Array.getElem?_modify, if_neg h]
  rw [part, hmachine]
  rfl

theorem part_tie_of_ne (h : id ≠ id') (w : World σ) (thread : Thread) :
    (w.tie thread id).part id' = w.part id' := by
  have hmachine : (w.tie thread id).machines[id']? = w.machines[id']? :=
    congrArg Prod.fst (w.part_update_of_ne h (·.count .countAttachment))
  have hattached : (w.tie thread id).attachedTo id' = w.attachedTo id' := by
    simp [attachedTo, tie, h]
  exact Prod.ext hmachine hattached

theorem part_detach_of_ne (h : id ≠ id') (w : World σ) (thread : Thread) :
    (w.detach thread id).part id' = w.part id' := by
  have hattached : (w.detach thread id).attachedTo id' = w.attachedTo id' := by
    rw [attachedTo, detach, List.filter_filter, attachedTo]
    refine congrArg (List.map _) (List.filter_congr fun x _ => ?_)
    by_cases hx : x.2 = id'
    · have hne : x ≠ (thread, id) := by
        rintro rfl
        exact h hx
      simp [hx, hne]
    · simp [hx]
  exact Prod.ext rfl hattached

theorem part_create_of_ne (w : World σ) (h : w.machines.size ≠ id) (classes : List (Class σ)) :
    (w.create classes).part id = w.part id := by
  have hmachine : (w.create classes).machines[id]? = w.machines[id]? := by
    rw [create, Array.getElem?_push, if_neg (Ne.symm h)]
  rw [part, hmachine]
  rfl

end World

theorem overlooks_part (h : id ≠ id') : Overlooks (fun w : World σ => w.part id') id :=
  ⟨fun w _ _ => w.part_update_of_ne h _, fun _ _ => rfl⟩

end CallBridge.Managed

namespace CallBridge.Bridge.Session
open Managed

variable {σ : Type} {s : Session σ} {op : Operation σ} {c : Context} {b : Binding σ}

/-! ### Where a binding was resolved -/

/-- The operation resolves a source to this binding, through this context. -/
def Obtains (s : Session σ) (op : Operation σ) (c : Context) (b : Binding σ) : Prop :=
  ∃ e name source, Resolves s e name op ∧ s.contexts[e]? = some c ∧
    s.source? name = some source ∧ (op.resolution c source s.world).1 = .ok b

theorem Obtains.exists_entry (h : Obtains s op c b) :
    ∃ source entry, s.world.found? c source = some entry ∧
      b = source.bindingTo c s.world entry := by
  obtain ⟨e, name, source, -, -, -, hres⟩ := h
  rw [Operation.resolution] at hres
  split at hres
  · obtain ⟨entry, hfound, hb⟩ := exists_entry_of_resolveTarget hres
    exact ⟨source, entry, hfound, hb⟩
  · obtain ⟨entry, hfound, hb, -⟩ := exists_entry_of_resolve hres
    exact ⟨source, entry, hfound, hb⟩

theorem Obtains.machine_eq (h : Obtains s op c b) : b.machine = c.machine := by
  obtain ⟨source, entry, -, rfl⟩ := h.exists_entry
  rfl

theorem resolves_on {n : Nat} (unbound : s.registry? n = some ⟨none⟩) (q : Request) (e : Nat)
    (name : SourceName) : Resolves s e name (q.on n e name) := by
  cases q with
  | bind => exact .bind unbound
  | sort thread buffer => exact .sort unbound
  | sortAt thread address count buffer => exact .sortAt unbound
  | sortOrEnd reaction thread address count buffer => exact .sortOrEnd unbound

theorem resolution_on (q : Request) (n e : Nat) (name : SourceName) :
    (q.on n e name : Operation σ).resolution = Bridge.resolve := by
  cases q <;> rfl

theorem binding?_perform (s : Session σ) (op : Operation σ) {n : Nat}
    (h : Session.binding? (s.perform op).2 n = some b) :
    s.binding? n = some b ∨ ∃ c, Obtains s op c b := by
  rcases holdings_perform s op with hsame | hop
  · have hbindings : (s.perform op).2.bindings = s.bindings := congrArg Prod.snd hsame
    rw [binding?, hbindings] at h
    exact .inl h
  cases hop with
  | asked q m e name =>
    rcases perform_on_cases s q m e name with ⟨r, c, source, -, -, -, heq⟩ | heq <;>
      rw [heq] at h <;> exact .inl h
  | newRegistry => exact .inl h
  | dropRegistry m =>
    simp only [perform] at h
    split at h <;> exact .inl h
  | resolve e name =>
    revert h
    refine of_through (P := fun s' => s'.binding? n = some b → _) (fun c source hc hs => ?_) .inl
    refine of_act (P := fun s' => s'.binding? n = some b → _) (fun b' w hres h => ?_)
      fun _ _ _ => .inl
    simp only [binding?, Array.getElem?_push] at h
    split at h
    · obtain rfl : b' = b := Option.some.inj h
      exact .inr ⟨c, e, name, source, .resolve, hc, hs, congrArg Prod.fst hres⟩
    · exact .inl h
  | dropBinding m =>
    simp only [perform] at h
    split at h
    · simp only [binding?, Array.getElem?_setIfInBounds] at h
      split at h
      · split at h <;> cases h
      · exact .inl h
    · exact .inl h

theorem obtains_of_new {holder : Holder} (h : Session.bound? (s.perform op).2 holder = some b)
    (hnew : s.bound? holder ≠ some b) : ∃ c, Obtains s op c b := by
  cases holder with
  | binding n =>
    rw [bound?_binding] at h hnew
    rcases binding?_perform s op h with hold | hobtains
    · exact absurd hold hnew
    · exact hobtains
  | registry n =>
    rw [bound?_registry] at h hnew
    cases slot_perform s op n with
    | kept hkept => exact absurd (hkept ▸ h) hnew
    | opened _ _ hopened =>
      rw [hopened] at h
      cases h
    | dropped _ hdropped =>
      rw [hdropped] at h
      cases h
    | @bound q e name c source b' hop unbound hc hs resolved hbound =>
      rw [hbound] at h
      obtain rfl : b' = b := Option.some.inj h
      subst hop
      refine ⟨c, e, name, source, resolves_on unbound q e name, hc, hs, ?_⟩
      rw [resolution_on]
      exact resolved

/-- Every binding that a session holds was resolved by an operation of its run. -/
theorem exists_obtains (memory : σ) (ops : List (Operation σ)) {holder : Holder}
    (h : ((start memory).run ops).bound? holder = some b) :
    ∃ earlier op later c, ops = earlier ++ op :: later ∧
      Obtains ((start memory).run earlier) op c b := by
  induction ops using List.reverseRecOn with
  | nil => cases holder <;> simp [run, start, bound?, held?, registry?, binding?] at h
  | append_singleton ops op ih =>
    by_cases hbefore : ((start memory).run ops).bound? holder = some b
    · obtain ⟨earlier, op', later, c, hops, hobtains⟩ := ih hbefore
      refine ⟨earlier, op', later ++ [op], c, ?_, hobtains⟩
      rw [hops, List.append_assoc, List.cons_append]
    · rw [run_append] at h
      obtain ⟨c, hobtains⟩ := obtains_of_new h hbefore
      exact ⟨ops, op, [], c, rfl, hobtains⟩

theorem size_perform (s : Session σ) (op : Operation σ) :
    s.world.machines.size ≤ (s.perform op).2.world.machines.size := by
  -- only a new runtime changes their number
  by_cases hcreate : ∃ ks, op = .create ks
  · obtain ⟨ks, rfl⟩ := hcreate
    simp [perform, World.create]
  · refine Nat.le_of_eq
      (view_perform (f := fun w => w.machines.size) s op (fun _ _ _ _ => rfl) (fun id _ => ?_) ?_
        ?_).symm
    · exact ⟨⟨fun w _ _ => by simp [World.update], fun _ _ => rfl⟩,
        fun _ _ w _ => by simp [World.tie, World.count, World.update]⟩
    · exact fun ks hks => absurd ⟨ks, hks⟩ hcreate
    · exact fun _ _ _ => rfl

theorem size_run (s : Session σ) (ops : List (Operation σ)) :
    s.world.machines.size ≤ (s.run ops).world.machines.size := by
  induction ops generalizing s with
  | nil => exact Nat.le_refl _
  | cons op ops ih => exact Nat.le_trans (s.size_perform op) (ih _)

theorem machine_lt_of_bound? (memory : σ) (ops : List (Operation σ)) {holder : Holder}
    (h : ((start memory).run ops).bound? holder = some b) :
    b.machine < ((start memory).run ops).world.machines.size := by
  obtain ⟨earlier, op, later, c, rfl, hobtains⟩ := exists_obtains memory ops h
  obtain ⟨source, entry, hfound, rfl⟩ := hobtains.exists_entry
  rw [run_append]
  exact Nat.lt_of_lt_of_le (World.lt_of_found? hfound) (size_run _ _)

/-! ### Runtimes -/

/-- An operation leaves the runtimes alone that it does not work on. -/
theorem part_perform (s : Session σ) (op : Operation σ) {id : Nat} (h : s.site op ≠ some id) :
    (s.perform op).2.world.part id = s.world.part id := by
  have hne : ∀ id', s.site op = some id' → id' ≠ id := by
    rintro id' hid' rfl
    exact h hid'
  refine view_perform (f := fun w => w.part id) s op (fun _ _ _ _ => rfl) (fun id' hid' => ?_) ?_ ?_
  · exact ⟨overlooks_part (hne id' hid'), fun _ _ w => w.part_tie_of_ne (hne id' hid')⟩
  · rintro ks rfl
    exact s.world.part_create_of_ne (hne _ rfl) ks
  · rintro thread id' rfl
    exact s.world.part_detach_of_ne (hne _ rfl) thread

/-- In every state that a process can come to, an operation changes at most the runtime it works on.
A binding works on the runtime of the context that it was resolved through, and so does everyone
who uses it, through whatever context. -/
theorem runtimes_apart (memory : σ) (ops : List (Operation σ)) :
    let s := (start memory).run ops
    (∀ op id, s.site op ≠ some id → (s.perform op).2.world.part id = s.world.part id) ∧
    (∀ holder b, s.bound? holder = some b →
      ∃ earlier op later c, ops = earlier ++ op :: later ∧
        Obtains ((start memory).run earlier) op c b ∧ b.machine = c.machine) ∧
    ∀ n b, s.bound? (.registry n) = some b →
      ∀ e c, s.contexts[e]? = some c → c.machine ≠ b.machine → ∀ (q : Request) name,
        (s.perform (q.on n e name)).2.world.part c.machine = s.world.part c.machine := by
  intro s
  refine ⟨fun op id h => part_perform s op h, fun holder b hb => ?_,
    fun n b hb e c hc hne q name => ?_⟩
  · obtain ⟨earlier, op, later, c, hops, hobtains⟩ := exists_obtains memory ops hb
    exact ⟨earlier, op, later, c, hops, hobtains, hobtains.machine_eq⟩
  · have hsite : s.site (q.on n e name) = some b.machine := by
      cases q <;> simp only [Request.on, site, hb] <;> rfl
    refine part_perform s _ ?_
    rw [hsite]
    exact fun h => hne (Option.some.inj h).symm

def twoRuntimes : List (Operation Unit) :=
  [.create Class.benchmarks, .create Class.benchmarks, .enter .main 0, .enter .main 1, .newRegistry,
    .bind 0 1 (.ofClass benchmarkClass .staticComparator)]

/-- A sort with a context of the first runtime, through a registry that is bound in the second. -/
theorem runtimes_apart_mixed :
    let b : Binding Unit := ⟨1, 0, .onClass, .staticComparator, .ascending⟩
    let s := (start ()).run twoRuntimes
    let s' := (s.perform (.sort .main 0 0 (.ofClass benchmarkClass .staticComparator) #[3, 1, 2])).2
    s.bound? (.registry 0) = some b ∧ s'.world.part 0 = s.world.part 0 := by
  intro b s s'
  obtain ⟨-, -, hmixed⟩ := runtimes_apart () twoRuntimes
  have hbound : s.bound? (.registry 0) = some b := rfl
  have hcontext : s.contexts[0]? = some ⟨0, 1⟩ := rfl
  refine ⟨hbound, ?_⟩
  exact hmixed 0 b hbound 0 ⟨0, 1⟩ hcontext Nat.zero_ne_one (.sort .main #[3, 1, 2]) _

end CallBridge.Bridge.Session
