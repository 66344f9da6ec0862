import CallBridge.Proofs.Bridge.Requests

/-!
# Where an operation works

An operation works on one runtime at most: the one it names, that of the context it names, or that
of the binding it uses (`Session.site`). Calls and sorts come to a binding (`Session.reached?`) and
attach their thread to its runtime, as entering a runtime does (`Session.attempt?`). `view_perform`
says that nothing else happens to a world: what is shown of it stays the same unless it shows
something of this runtime.
-/

namespace CallBridge.Managed
variable {σ τ : Type} {f : World σ → τ} {id : Nat}

/-- Of a runtime, `f` shows at most how many threads were attached, and which. -/
structure Overlooks (f : World σ → τ) (id : Nat) : Prop where
  update : ∀ w {g : Machine σ → Machine σ},
    (∀ m, (g m).counters.attachments = m.counters.attachments) → f (w.update id g) = f w
  memory : ∀ w memory, f { w with memory } = f w

/-- `f` does not show diagnostics. -/
def OverlooksNotices (f : World σ → τ) : Prop :=
  ∀ w severity event fields, f (w.notify severity event fields) = f w

/-- `f` does not show the threads newly attached to a runtime. -/
def OverlooksTies (f : World σ → τ) (id : Nat) : Prop := ∀ w thread, f (w.tie thread id) = f w

theorem Overlooks.resolving (hf : Overlooks f id) : IgnoresResolving f id :=
  ⟨fun w => hf.update w fun _ => rfl, fun w => hf.update w fun _ => rfl,
    fun w => hf.update w fun _ => rfl⟩

theorem Overlooks.asking (hf : Overlooks f id) (hties : OverlooksTies f id) :
    IgnoresAsking f id :=
  ⟨fun w => hf.update w fun _ => rfl, hties, fun w => hf.update w fun _ => rfl, hf.memory⟩

theorem Overlooks.release {b : Bridge.Binding σ} (hf : Overlooks f b.machine) (w : World σ) :
    f (b.release w) = f w := hf.update w fun _ => rfl

theorem enter_view (hf : Overlooks f id) (hties : OverlooksTies f id) (thread : Thread) :
    (enter thread id : Act σ Context).Keeps f := by
  refine (attach_keeps (hf.asking hties) thread).bind fun _ =>
    (Act.Keeps.change fun w => ?_).bind fun _ => .look _
  exact hf.update w fun _ => rfl

theorem newObject_view {c : Context} (hf : Overlooks f c.machine) (className : String) :
    (newObject c className : Act σ LocalRef).Keeps f := by
  refine (findClass_keeps f c.machine className).bind fun _ =>
    (Act.Keeps.look _).bind fun _ => (Act.Keeps.change fun w => ?_).bind fun _ => .pure _
  exact hf.update w fun _ => rfl

end CallBridge.Managed

namespace CallBridge.Bridge
open Managed

variable {σ τ : Type} {f : World σ → τ}

theorem exists_entry_of_resolveTarget {c : Context} {source : Source} {w : World σ} {b : Binding σ}
    (h : (resolveTarget c source w).1 = .ok b) :
    ∃ entry, w.found? c source = some entry ∧ b = source.bindingTo c w entry := by
  rcases resolveTarget_found c source w with ⟨entry, hfound, hres⟩ | ⟨e, w', -, hres, -⟩
  · rw [hres] at h
    exact ⟨entry, hfound, (Except.ok.inj h).symm⟩
  · rw [hres] at h
    cases h

theorem exists_entry_of_resolve {c : Context} {source : Source} {w : World σ} {b : Binding σ}
    (h : (resolve c source w).1 = .ok b) :
    ∃ entry, w.found? c source = some entry ∧ b = source.bindingTo c w entry ∧
      (resolve c source w).2 = w.count c.machine .countResolution := by
  rcases resolve_cases c source w with ⟨entry, -, hfound, hres⟩ | ⟨e, w', -, hres, -⟩
  · rw [hres] at h ⊢
    exact ⟨entry, hfound, (Except.ok.inj h).symm, rfl⟩
  · rw [hres] at h
    cases h

theorem machine_of_resolve {c : Context} {source : Source} {w : World σ} {b : Binding σ}
    (h : (resolve c source w).1 = .ok b) : b.machine = c.machine := by
  obtain ⟨entry, -, rfl, -⟩ := exists_entry_of_resolve h
  rfl

theorem Binding.sort_view {b : Binding σ} (thread : Thread) {part : Segment}
    (hf : 2 ≤ part.length → IgnoresAsking f b.machine) (buffer : Array Int32) (w : World σ) :
    f (b.sort thread part buffer w).memory = f w := by
  by_cases hlen : 2 ≤ part.length
  · exact b.sort_keeps (hf hlen) thread part buffer w
  · -- fewer than two elements: nothing is asked, and nobody is attached
    have hdone : Sort.segment part.start part.length = .done () :=
      Sort.segment_of_le_one (by omega)
    rw [sort, hdone]
    rfl

theorem sortWithOutcome_view {thread : Thread} {part : Segment}
    {outcome : Except Failure (Binding σ)}
    (hf : ∀ b, outcome = .ok b → 2 ≤ part.length → IgnoresAsking f b.machine)
    (buffer : Array Int32) (w : World σ) :
    f (sortWithOutcome thread part buffer w outcome).memory = f w := by
  cases outcome with
  | ok b => exact b.sort_view thread (hf b rfl) buffer w
  | error e => rfl

/-- The thread of a call, or of a sort that has something to ask. -/
def Operation.asker? : Operation σ → Option Thread
  | .invoke thread _ _ => some thread
  | .sort thread _ _ _ buffer | .sortFresh thread _ _ buffer | .sortBound thread _ buffer =>
    if 2 ≤ buffer.size then some thread else none
  | .sortAt thread _ _ _ address count _ | .sortOrEnd _ thread _ _ _ address count _ =>
    if 2 ≤ (segmentAt address count).length then some thread else none
  | _ => none

theorem Request.asker?_on (q : Request) (n e : Nat) (name : SourceName) {thread : Thread}
    {part : Segment} {buffer : Array Int32} (hjob : q.job? = some (thread, part, buffer))
    (hlen : 2 ≤ part.length) : (q.on n e name : Operation σ).asker? = some thread := by
  cases q <;> obtain ⟨⟩ := hjob
  all_goals exact if_pos hlen

namespace Session
variable {s : Session σ}

/-- The binding that a holder holds. -/
def bound? (s : Session σ) (holder : Holder) : Option (Binding σ) := (s.held? holder).join

/-- The binding that a registry gives through a context. -/
def given? (s : Session σ) (n e : Nat) (name : SourceName) : Option (Binding σ) :=
  match s.registry? n, s.contexts[e]?, s.source? name with
  | some r, some c, some source => (r.bind c source s.world).1.toOption
  | _, _, _ => none

/-- The binding that a source is resolved to through a context. -/
def resolved? (s : Session σ) (e : Nat) (name : SourceName) : Option (Binding σ) :=
  match s.contexts[e]?, s.source? name with
  | some c, some source => (Bridge.resolve c source s.world).1.toOption
  | _, _ => none

/-- The binding that a call or a sort comes to. -/
def reached? (s : Session σ) : Operation σ → Option (Binding σ)
  | .invoke _ holder _ | .sortBound _ holder _ => s.bound? holder
  | .sortFresh _ e name _ => s.resolved? e name
  | .sort _ n e name _ | .sortAt _ n e name _ _ _ | .sortOrEnd _ _ n e name _ _ _ =>
    s.given? n e name
  | _ => none

/-- The runtime that an operation works on. -/
def site (s : Session σ) : Operation σ → Option Nat
  | .create _ => some s.world.machines.size
  | .define id _ | .inject id _ | .clearFaults id | .enter _ id | .ensureAttached _ id
  | .detach _ id => some id
  | .newObject e _ | .requestHandle e | .lookup e _ | .resolve e _ | .sortFresh _ e _ _ =>
    s.contexts[e]?.map (·.machine)
  | .newRegistry => none
  | .dropRegistry n => (s.bound? (.registry n)).map (·.machine)
  | .dropBinding n => (s.bound? (.binding n)).map (·.machine)
  | .sortBound _ holder _ | .invoke _ holder _ => (s.bound? holder).map (·.machine)
  | .bind n e _ | .sort _ n e _ _ | .sortAt _ n e _ _ _ _ | .sortOrEnd _ _ n e _ _ _ _ =>
    ((s.bound? (.registry n)).map (·.machine)).or (s.contexts[e]?.map (·.machine))

/-- The thread that an operation would attach, and to which runtime. -/
def attempt? (s : Session σ) : Operation σ → Option (Thread × Nat)
  | .enter thread id | .ensureAttached thread id =>
    if id < s.world.machines.size then some (thread, id) else none
  | op => op.asker?.bind fun thread => (s.reached? op).map fun b => (thread, b.machine)

theorem attempt?_of_asker {op : Operation σ} {thread : Thread} {b : Binding σ}
    (hasker : op.asker? = some thread) (hb : s.reached? op = some b) :
    s.attempt? op = some (thread, b.machine) := by
  have hbind : (op.asker?.bind fun thread => (s.reached? op).map fun b => (thread, b.machine)) =
      some (thread, b.machine) := by
    rw [hasker, hb]
    rfl
  cases op with
  | enter thread id => cases hasker
  | ensureAttached thread id => cases hasker
  | _ => exact hbind

theorem given?_eq_some {n e : Nat} {name : SourceName} {b : Binding σ} :
    s.given? n e name = some b ↔ ∃ r c source, s.registry? n = some r ∧ s.contexts[e]? = some c ∧
      s.source? name = some source ∧ (r.bind c source s.world).1 = .ok b := by
  unfold given?
  constructor
  · intro h
    split at h
    · next r c source hr hc hs =>
      rcases hbind : (r.bind c source s.world).1 with e' | b' <;> rw [hbind] at h
      · cases h
      · obtain rfl : b' = b := Option.some.inj h
        exact ⟨r, c, source, hr, hc, hs, hbind⟩
    · cases h
  · rintro ⟨r, c, source, hr, hc, hs, hbind⟩
    simp only [hr, hc, hs, hbind]
    rfl

theorem resolved?_eq_some {e : Nat} {name : SourceName} {b : Binding σ} :
    s.resolved? e name = some b ↔ ∃ c source, s.contexts[e]? = some c ∧
      s.source? name = some source ∧ (Bridge.resolve c source s.world).1 = .ok b := by
  unfold resolved?
  constructor
  · intro h
    split at h
    · next c source hc hs =>
      rcases hres : (Bridge.resolve c source s.world).1 with e' | b' <;> rw [hres] at h
      · cases h
      · obtain rfl : b' = b := Option.some.inj h
        exact ⟨c, source, hc, hs, hres⟩
    · cases h
  · rintro ⟨c, source, hc, hs, hres⟩
    simp only [hc, hs, hres]
    rfl

theorem attempt?_on {q : Request} {n e : Nat} {name : SourceName} {r : Registry σ} {c : Context}
    {source : Source} (hr : s.registry? n = some r) (hc : s.contexts[e]? = some c)
    (hs : s.source? name = some source) {b : Binding σ}
    (hb : (r.bind c source s.world).1 = .ok b) {thread : Thread} {part : Segment}
    {buffer : Array Int32} (hjob : q.job? = some (thread, part, buffer))
    (hlen : 2 ≤ part.length) : s.attempt? (q.on n e name) = some (thread, b.machine) := by
  have hgiven := given?_eq_some.2 ⟨r, c, source, hr, hc, hs, hb⟩
  have hasker : (q.on n e name : Operation σ).asker? = some thread := q.asker?_on n e name hjob hlen
  cases q with
  | bind => cases hjob
  | _ => exact attempt?_of_asker hasker hgiven

theorem bound?_of_held? {holder : Holder} {b : Binding σ} (h : s.held? holder = some (some b)) :
    s.bound? holder = some b := by
  rw [bound?, h]
  rfl

theorem bound?_registry (s : Session σ) (n : Nat) :
    s.bound? (.registry n) = (s.registry? n).bind (·.binding) := by
  rw [bound?, held?]
  cases s.registry? n <;> rfl

theorem bound?_binding (s : Session σ) (n : Nat) : s.bound? (.binding n) = s.binding? n := by
  rw [bound?, held?]
  cases s.binding? n <;> rfl

theorem machine_of_given? {n e : Nat} {name : SourceName} {b : Binding σ}
    (h : s.given? n e name = some b) : ((s.bound? (.registry n)).map (·.machine)).or
      (s.contexts[e]?.map (·.machine)) = some b.machine := by
  obtain ⟨⟨_ | b'⟩, c, source, hr, hc, hs, hbind⟩ := given?_eq_some.1 h
  · rcases bind_unbound c source s.world with ⟨b', w, hres, heq⟩ | ⟨e', w, -, heq⟩ <;>
      rw [heq] at hbind
    · obtain rfl := Except.ok.inj hbind
      rw [bound?_registry, hr, hc, machine_of_resolve hres]
      rfl
    · cases hbind
  · rw [Registry.bind_of_bound rfl] at hbind
    obtain rfl := Except.ok.inj hbind
    rw [bound?_registry, hr]
    rfl

theorem site_of_reached? {op : Operation σ} {b : Binding σ} (h : s.reached? op = some b) :
    s.site op = some b.machine := by
  cases op with
  | invoke thread holder q => exact congrArg (Option.map _) h
  | sortBound thread holder buffer => exact congrArg (Option.map _) h
  | sortFresh thread e name buffer =>
    obtain ⟨c, source, hc, hs, hres⟩ := resolved?_eq_some.1 h
    rw [site, hc, machine_of_resolve hres]
    rfl
  | sort thread n e name buffer => exact machine_of_given? h
  | sortAt thread n e name address count buffer => exact machine_of_given? h
  | sortOrEnd reaction thread n e name address count buffer => exact machine_of_given? h
  | _ => cases h

/-! ### Operations that come to a binding -/

section
variable {b : Binding σ}

theorem perform_invoke {holder : Holder} (h : s.bound? holder = some b) (thread : Thread)
    (q : Question) : s.perform (.invoke thread holder q) =
      s.act (b.invoke thread q) fun answer s => (.order answer, s) := by
  have hheld : s.held? holder = some (some b) := Option.join_eq_some_iff.1 h
  simp only [perform, hheld]

theorem perform_sortBound {holder : Holder} (h : s.bound? holder = some b) (thread : Thread)
    (buffer : Array Int32) : s.perform (.sortBound thread holder buffer) =
      s.finish (b.sort thread (.whole buffer) buffer s.world) := by
  have hheld : s.held? holder = some (some b) := Option.join_eq_some_iff.1 h
  simp only [perform, hheld]

theorem perform_sortFresh {e : Nat} {name : SourceName} (h : s.resolved? e name = some b)
    (thread : Thread) (buffer : Array Int32) :
    ∃ c source w, Bridge.resolve c source s.world = (.ok b, w) ∧
      s.perform (.sortFresh thread e name buffer) =
        let sorted := b.sort thread (.whole buffer) buffer w
        s.finish { sorted with memory := b.release sorted.memory } := by
  obtain ⟨c, source, hc, hs, hres⟩ := resolved?_eq_some.1 h
  rcases hx : Bridge.resolve c source s.world with ⟨outcome, w⟩
  rw [hx] at hres
  obtain rfl : outcome = .ok b := hres
  refine ⟨c, source, w, hx, ?_⟩
  simp only [perform, through_eq hc hs, Bridge.sortFresh, sortFreshWith, hx]

theorem perform_given {n e : Nat} {name : SourceName} (h : s.given? n e name = some b)
    (q : Request) :
    ∃ r c source r' w, s.registry? n = some r ∧ r.bind c source s.world = (.ok b, r', w) ∧
      s.perform (q.on n e name) = ((q.conclude (.ok b) r.isBound w).1,
        { s.setRegistry n (some r') with world := (q.conclude (.ok b) r.isBound w).2 }) := by
  obtain ⟨r, c, source, hr, hc, hs, hbind⟩ := given?_eq_some.1 h
  rcases hx : r.bind c source s.world with ⟨outcome, r', w⟩
  rw [hx] at hbind
  obtain rfl : outcome = .ok b := hbind
  refine ⟨r, c, source, r', w, hr, hx, ?_⟩
  rw [perform_on q hr hc hs, hx]

end

/-! ### What an operation leaves alone -/

/-- `f` shows nothing of a runtime that an operation may change. -/
structure Spares (s : Session σ) (op : Operation σ) (f : World σ → τ) (id : Nat) : Prop where
  overlooks : Overlooks f id
  ties : ∀ thread, s.attempt? op = some (thread, id) → OverlooksTies f id

/-- What is asked of a registry works on the runtime of its binding: if it holds none yet, on that
of the context. -/
theorem view_on (s : Session σ) (q : Request) (n e : Nat) (name : SourceName)
    (hnotices : OverlooksNotices f)
    (hspares : ∀ id, s.site (q.on n e name) = some id → s.Spares (q.on n e name) f id) :
    f (s.perform (q.on n e name)).2.world = f s.world := by
  have hsite : s.site (q.on n e name) = ((s.bound? (.registry n)).map (·.machine)).or
      (s.contexts[e]?.map (·.machine)) := by
    cases q <;> rfl
  rw [bound?_registry] at hsite
  rcases perform_on_cases s q n e name with ⟨r, c, source, hr, hc, hs, h⟩ | h <;> rw [h]
  rw [hr, hc] at hsite
  have hasking : ∀ b, (r.bind c source s.world).1 = .ok b →
      s.site (q.on n e name) = some b.machine →
      ∀ thread part buffer, q.job? = some (thread, part, buffer) → 2 ≤ part.length →
        IgnoresAsking f b.machine := by
    intro b hb hmachine thread part buffer hjob hlen
    have hf := hspares _ hmachine
    exact hf.overlooks.asking (hf.ties thread (attempt?_on hr hc hs hb hjob hlen))
  obtain ⟨_ | b⟩ := r
  · have hf : Overlooks f c.machine := (hspares _ hsite).overlooks
    have hbind := Registry.bind_keeps hf.resolving hnotices ⟨none⟩ source s.world
    rcases bind_unbound c source s.world with ⟨b, w, hres, hb⟩ | ⟨e', w, hres, hb⟩ <;>
      rw [hb] at hbind hasking ⊢
    · have hmachine := machine_of_resolve hres
      refine (q.conclude_view hnotices (fun thread part buffer hjob => ?_) _).trans hbind
      refine sortWithOutcome_view (fun b' hb' hlen => ?_) buffer w
      obtain rfl := Except.ok.inj hb'
      exact hasking b rfl (hmachine ▸ hsite) thread part buffer hjob hlen
    · refine (q.conclude_view hnotices (fun thread part buffer _ => ?_) _).trans hbind
      exact sortWithOutcome_view (fun b hb => by cases hb) buffer w
  · rw [Registry.bind_of_bound rfl] at hasking ⊢
    refine q.conclude_view hnotices (fun thread part buffer hjob => ?_) _
    refine sortWithOutcome_view (fun b' hb' hlen => ?_) buffer s.world
    obtain rfl := Except.ok.inj hb'
    exact hasking b rfl hsite thread part buffer hjob hlen

/-- An act leaves alone what is shown of a world, if that shows nothing of where it works. -/
theorem Acts.view {op : Operation σ} {α : Type} {x : Act σ α}
    {answer : α → Session σ → Answer σ × Session σ} (h : Acts s op x answer)
    (hspares : ∀ id, s.site op = some id → s.Spares op f id) :
    f (s.act x answer).2.world = f s.world := by
  cases h with
  | @enter thread id hid =>
    have hf := hspares id rfl
    exact act_keeps (enter_view hf.overlooks (hf.ties thread (if_pos hid)) thread) fun _ _ _ h => h
  | @ensureAttached thread id hid =>
    have hf := hspares id rfl
    have hasking := hf.overlooks.asking (hf.ties thread (if_pos hid))
    exact act_keeps (ensureAttached_keeps hasking thread) fun _ _ _ h => h
  | @newObject e c className hc =>
    have hf := hspares c.machine (by rw [site, hc]; rfl)
    exact act_keeps (newObject_view hf.overlooks className) fun _ _ _ h => h
  | @requestHandle e c hc =>
    have hf := hspares c.machine (by rw [site, hc]; rfl)
    exact act_keeps (requestHandle_keeps c hf.overlooks.resolving.handle) fun _ _ _ h => h
  | @lookup e name c source hc hs =>
    have hf := (hspares c.machine (by rw [site, hc]; rfl)).overlooks
    refine act_keeps (resolveTarget_keeps hf.resolving source) fun b w hb h => ?_
    obtain ⟨entry, -, rfl⟩ := exists_entry_of_resolveTarget hb
    exact (hf.release w).trans h
  | @resolve e name c source hc hs =>
    have hf := hspares c.machine (by rw [site, hc]; rfl)
    exact act_keeps (resolve_keeps hf.overlooks.resolving source) fun _ _ _ h => h
  | @invoke thread holder q b hb =>
    have hbound := bound?_of_held? hb
    have hf := hspares b.machine (by rw [site, hbound]; rfl)
    have hasking := hf.overlooks.asking (hf.ties thread (attempt?_of_asker rfl hbound))
    exact act_keeps (b.invoke_keeps hasking thread q) fun _ _ _ h => h

/-- An operation that asks nothing of a registry leaves alone what is shown of a world, if that shows
nothing of where it works. -/
theorem view_unasked (s : Session σ) (op : Operation σ)
    (hasked : ∀ (q : Request) n e name, op ≠ q.on n e name)
    (hspares : ∀ id, s.site op = some id → s.Spares op f id)
    (hcreate : ∀ ks, op = .create ks → f (s.world.create ks) = f s.world)
    (hdetach : ∀ thread id, op = .detach thread id → f (s.world.detach thread id) = f s.world) :
    f (s.perform op).2.world = f s.world := by
  have h := s.effect op
  generalize s.perform op = after at h ⊢
  cases h with
  | none => rfl
  | create ks => exact hcreate ks rfl
  | change h =>
    cases h with
    | detach thread => exact hdetach thread _ rfl
    | _ => exact (hspares _ rfl).overlooks.update _ fun _ => rfl
  | act h => exact h.view hspares
  | newRegistry => rfl
  | @dropRegistry n r hr =>
    obtain ⟨_ | b⟩ := r
    · rfl
    · have hf := hspares b.machine (by rw [site, bound?_registry, hr]; rfl)
      exact hf.overlooks.release s.world
  | @dropBinding n b hb =>
    have hf := hspares b.machine (by rw [site, bound?_binding, hb]; rfl)
    exact hf.overlooks.release s.world
  | request q => exact absurd rfl (hasked q _ _ _)
  | @sortFresh thread e name buffer c source hc hs =>
    have hf := hspares c.machine (by rw [site, hc]; rfl)
    have hkept := resolve_keeps hf.overlooks.resolving source s.world
    simp only [finish, Bridge.sortFresh, sortFreshWith]
    rcases hres : Bridge.resolve c source s.world with ⟨e' | b, w⟩ <;> rw [hres] at hkept
    · exact hkept
    · have hok : (Bridge.resolve c source s.world).1 = .ok b := congrArg Prod.fst hres
      have hb := resolved?_eq_some.2 ⟨c, source, hc, hs, hok⟩
      rw [← machine_of_resolve hok] at hf
      have hsorted : f (b.sort thread (.whole buffer) buffer w).memory = f w := by
        refine b.sort_view thread (fun hlen => ?_) buffer w
        exact hf.overlooks.asking (hf.ties thread (attempt?_of_asker (if_pos hlen) hb))
      exact (hf.overlooks.release _).trans (hsorted.trans hkept)
  | @sortBound thread holder buffer b hb =>
    have hbound := bound?_of_held? hb
    have hf := hspares b.machine (by rw [site, hbound]; rfl)
    refine b.sort_view thread (fun hlen => ?_) buffer s.world
    exact hf.overlooks.asking (hf.ties thread (attempt?_of_asker (if_pos hlen) hbound))

/-- An operation leaves alone what is shown of a world, if that shows neither diagnostics nor
anything of where it works. -/
theorem view_perform (s : Session σ) (op : Operation σ) (hnotices : OverlooksNotices f)
    (hspares : ∀ id, s.site op = some id → s.Spares op f id)
    (hcreate : ∀ ks, op = .create ks → f (s.world.create ks) = f s.world)
    (hdetach : ∀ thread id, op = .detach thread id → f (s.world.detach thread id) = f s.world) :
    f (s.perform op).2.world = f s.world := by
  by_cases hasked : ∃ (q : Request) (n e : Nat) (name : SourceName), op = q.on n e name
  · obtain ⟨q, n, e, name, rfl⟩ := hasked
    exact view_on s q n e name hnotices hspares
  · refine view_unasked s op (fun q n e name h => hasked ⟨q, n, e, name, h⟩) hspares hcreate hdetach

end Session
end CallBridge.Bridge
