import CallBridge.Proofs.Bridge.Resolution

/-!
# The states of a registry

Few operations concern what a session holds, its registries and its bindings (`Concerns`). So a
registry goes through few states: it is opened unbound, bound by a request whose resolution
succeeds, and dropped (`Slot`). In between it is kept.
-/

namespace CallBridge.Bridge
open Managed

variable {σ : Type}

namespace Session
variable {s : Session σ} {n e : Nat} {name : SourceName} {c : Context} {source : Source}

/-! ### The states of a registry -/

theorem registry?_setRegistry_ne {m : Nat} (h : m ≠ n) (o : Option (Registry σ)) (w : World σ) :
    registry? { s.setRegistry m o with world := w } n = s.registry? n := by
  unfold Session.registry? setRegistry
  rw [Array.getElem?_setIfInBounds_ne h]

theorem setRegistry_self {r : Registry σ} (h : s.registry? n = some r) :
    s.setRegistry n (some r) = s := by
  have hn := registry?_lt h
  have hself : s.registries[n] = some r := by
    unfold Session.registry? at h
    simpa [Array.getElem?_eq_getElem hn] using h
  have hset : s.registries.setIfInBounds n (some r) = s.registries := by
    rw [← hself, Array.setIfInBounds, dif_pos hn, Array.set_getElem_self]
  rw [setRegistry, hset]

/-- What one operation makes of the registry numbered `n`: it keeps it, opens it, drops it, or binds
it to what a resolution came to. -/
inductive Slot (s s' : Session σ) (n : Nat) (op : Operation σ) : Prop
  | kept (h : s'.registry? n = s.registry? n)
  | opened (hop : op = .newRegistry) (absent : s.registry? n = none)
      (h : s'.registry? n = some ⟨none⟩)
  | dropped (hop : op = .dropRegistry n) (h : s'.registry? n = none)
  | bound {q : Request} {e name c source b} (hop : op = q.on n e name)
      (unbound : s.registry? n = some ⟨none⟩) (hc : s.contexts[e]? = some c)
      (hs : s.source? name = some source) (resolved : (Bridge.resolve c source s.world).1 = .ok b)
      (h : s'.registry? n = some ⟨some b⟩)

theorem Slot.of_registries {s' : Session σ} {op : Operation σ}
    (h : s'.registries = s.registries) : Slot s s' n op := .kept (congrArg (·[n]?.join) h)

/-- A request of another registry leaves this one alone, and so does one of a registry that is bound
already, or whose resolution fails. -/
theorem Slot.request (s : Session σ) (q : Request) (m e : Nat) (name : SourceName) (n : Nat) :
    Slot s (s.perform (q.on m e name)).2 n (q.on m e name) := by
  rcases perform_on_cases s q m e name with ⟨r, c, source, hr, hc, hs, h⟩ | h <;> rw [h]
  · by_cases hm : m = n
    · subst hm
      obtain ⟨_ | b⟩ := r
      · rcases bind_unbound c source s.world with ⟨b, w, hres, hb⟩ | ⟨e', w, hres, hb⟩ <;> rw [hb]
        · exact .bound rfl hr hc hs hres (registry?_setRegistry hr _ _)
        · exact .kept ((registry?_setRegistry hr _ _).trans hr.symm)
      · rw [Registry.bind_of_bound rfl]
        exact .kept ((registry?_setRegistry hr _ _).trans hr.symm)
    · exact .kept (registry?_setRegistry_ne hm _ _)
  · exact .kept rfl

theorem Slot.newRegistry (s : Session σ) (n : Nat) :
    Slot s (s.perform .newRegistry).2 n .newRegistry := by
  rcases Nat.lt_trichotomy n s.registries.size with hlt | rfl | hgt
  · refine .kept ?_
    simp [perform, Session.registry?, Array.getElem?_push, Nat.ne_of_lt hlt]
  · refine .opened rfl ?_ ?_ <;> simp [perform, Session.registry?]
  · refine .kept ?_
    simp [perform, Session.registry?, Array.getElem?_push, Nat.ne_of_gt hgt]

theorem Slot.dropRegistry (s : Session σ) (m n : Nat) :
    Slot s (s.perform (.dropRegistry m)).2 n (.dropRegistry m) := by
  simp only [perform]
  split
  · next r hr =>
    by_cases hm : m = n
    · subst hm
      refine .dropped rfl ?_
      unfold Session.registry? Session.setRegistry
      simp [Array.getElem?_setIfInBounds_self_of_lt (registry?_lt hr)]
    · exact .kept (registry?_setRegistry_ne hm _ _)
  · exact .kept rfl

/-- What a session holds: its registries and its bindings. -/
def holdings (s : Session σ) : Array (Option (Registry σ)) × Array (Option (Binding σ)) :=
  (s.registries, s.bindings)

/-- The operations that concern what a session holds. -/
inductive Concerns : Operation σ → Prop
  | asked (q : Request) (n e : Nat) (name : SourceName) : Concerns (q.on n e name)
  | newRegistry : Concerns .newRegistry
  | dropRegistry (n : Nat) : Concerns (.dropRegistry n)
  | resolve (e : Nat) (name : SourceName) : Concerns (.resolve e name)
  | dropBinding (n : Nat) : Concerns (.dropBinding n)

/-- Of the acts that operations do, only resolving a source adds to what a session holds. -/
theorem Acts.holdings_or {op : Operation σ} {α : Type} {x : Act σ α}
    {answer : α → Session σ → Answer σ × Session σ} (h : Acts s op x answer) :
    (s.act x answer).2.holdings = s.holdings ∨ Concerns op := by
  cases h with
  | @resolve e name => exact .inr (.resolve e name)
  | _ =>
    refine .inl (of_act (P := fun s' => s'.holdings = s.holdings) (fun _ _ _ => ?_) fun _ _ _ => ?_)
    · rfl
    · rfl

theorem holdings_perform (s : Session σ) (op : Operation σ) :
    (s.perform op).2.holdings = s.holdings ∨ Concerns op := by
  have h := s.effect op
  generalize s.perform op = after at h ⊢
  cases h with
  | act h => exact h.holdings_or
  | newRegistry => exact .inr .newRegistry
  | @dropRegistry n => exact .inr (.dropRegistry n)
  | @dropBinding n => exact .inr (.dropBinding n)
  | @request n e name _ _ _ q => exact .inr (.asked q n e name)
  | _ => exact .inl rfl

theorem slot_perform (s : Session σ) (op : Operation σ) (n : Nat) :
    Slot s (s.perform op).2 n op := by
  rcases holdings_perform s op with h | h
  · exact .of_registries (congrArg Prod.fst h)
  cases h with
  | asked q m e name => exact .request s q m e name n
  | newRegistry => exact .newRegistry s n
  | dropRegistry m => exact .dropRegistry s m n
  | resolve e name =>
    refine of_through (P := fun s' => Slot s s' n _) (fun c source _ _ => ?_) (.kept rfl)
    exact of_act (P := fun s' => Slot s s' n _) (fun _ _ _ => .kept rfl) fun _ _ _ => .kept rfl
  | dropBinding m =>
    simp only [perform]
    split <;> exact .kept rfl

end Session
end CallBridge.Bridge
