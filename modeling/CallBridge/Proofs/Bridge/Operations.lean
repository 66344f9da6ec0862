import CallBridge.Bridge.Session
import CallBridge.Proofs.Bridge.Fabric

/-!
# What an operation does

Four operations ask a registry for its binding: binding it and the three ways to sort with it. They
differ in what they do once there is a binding, or none (`Request.conclude`); until then they are
the same (`perform_on`). Seven operations do one act and answer with what it came to
(`Session.Acts`), and four change a runtime and nothing else (`Session.Changes`). `Session.Effect`
says all that an operation can do, so that what it leaves alone or adds is found by cases of it.
-/

namespace CallBridge.Bridge
open Managed Diagnostic

variable {σ : Type}

/-! ### What is asked of a registry -/

/-- A sort for a caller who cannot be told of a failure, with the diagnostic that tells of one. -/
def reported (reaction : OnFatal) (sorted : Sorted σ) : Sorted σ :=
  match sorted.result with
  | .ok () => sorted
  | .error e =>
    { sorted with memory := sorted.memory.notify .fatal "bridge_fatal" (fatalFields reaction e) }

theorem reported_result (reaction : OnFatal) (sorted : Sorted σ) :
    (reported reaction sorted).result = sorted.result := by
  unfold reported
  split <;> rfl

theorem reported_buffer (reaction : OnFatal) (sorted : Sorted σ) :
    (reported reaction sorted).buffer = sorted.buffer := by
  unfold reported
  split <;> rfl

/-- A sort with the binding there is, or the failure to come to one. -/
def sortWithOutcome (thread : Thread) (part : Segment) (buffer : Array Int32) (w : World σ) :
    Except Failure (Binding σ) → Sorted σ
  | .ok b => b.sort thread part buffer w
  | .error e => ⟨.error e, buffer, w⟩

/-- What can be asked of a registry, whatever the context and the source. -/
inductive Request where
  | bind
  | sort (thread : Thread) (buffer : Array Int32)
  | sortAt (thread : Thread) (address : Option Nat) (count : Int) (buffer : Array Int32)
  | sortOrEnd (reaction : OnFatal) (thread : Thread) (address : Option Nat) (count : Int)
      (buffer : Array Int32)

namespace Request

/-- The operation that asks it of a registry. -/
def on (registry context : Nat) (source : SourceName) : Request → Operation σ
  | bind => .bind registry context source
  | sort thread buffer => .sort thread registry context source buffer
  | sortAt thread address count buffer =>
    .sortAt thread registry context source address count buffer
  | sortOrEnd reaction thread address count buffer =>
    .sortOrEnd reaction thread registry context source address count buffer

/-- What is done with a binding, which may have been there before, or without one. -/
def conclude (outcome : Except Failure (Binding σ)) (again : Bool) (w : World σ) :
    Request → Answer σ × World σ
  | bind =>
    match outcome with
    | .ok b => (.bound b again, w)
    | .error e => (.failed e, w)
  | sort thread buffer => finish (sortWithOutcome thread (.whole buffer) buffer w outcome)
  | sortAt thread address count buffer =>
    finish (sortWithOutcome thread (segmentAt address count) buffer w outcome)
  | sortOrEnd reaction thread address count buffer =>
    finish (reported reaction
      (sortWithOutcome thread (segmentAt address count) buffer w outcome))
where
  finish (sorted : Sorted σ) : Answer σ × World σ :=
    (.sorted sorted.result sorted.buffer, sorted.memory)

/-- The sort that is asked for: on a thread, of a segment of a buffer. -/
def job? : Request → Option (Thread × Segment × Array Int32)
  | bind => none
  | sort thread buffer => some (thread, .whole buffer, buffer)
  | sortAt thread address count buffer | sortOrEnd _ thread address count buffer =>
    some (thread, segmentAt address count, buffer)

/-- What its sort leaves of the world as it was, but for diagnostics, a request leaves. -/
theorem conclude_view {β : Type} {view : World σ → β}
    (hnotify : ∀ w severity event fields, view (w.notify severity event fields) = view w)
    {outcome : Except Failure (Binding σ)} {w : World σ} (q : Request)
    (hsort : ∀ thread part buffer, q.job? = some (thread, part, buffer) →
      view (sortWithOutcome thread part buffer w outcome).memory = view w)
    (again : Bool) : view (q.conclude outcome again w).2 = view w := by
  have hreported : ∀ (reaction : OnFatal) (sorted : Sorted σ),
      view (reported reaction sorted).memory = view sorted.memory := by
    intro reaction sorted
    unfold reported
    split
    · rfl
    · exact hnotify ..
  cases q with
  | bind => cases outcome <;> rfl
  | sort thread buffer => exact hsort _ _ _ rfl
  | sortAt thread address count buffer => exact hsort _ _ _ rfl
  | sortOrEnd reaction thread address count buffer =>
    exact (hreported ..).trans (hsort _ _ _ rfl)

/-- What questions and diagnostics leave alone, a request leaves alone once the registry has given
its binding or failed to. -/
theorem conclude_keeps {β : Type} {view : World σ → β} (hasking : ∀ id, IgnoresAsking view id)
    (hnotify : ∀ w severity event fields, view (w.notify severity event fields) = view w)
    (outcome : Except Failure (Binding σ)) (again : Bool) (w : World σ) (q : Request) :
    view (q.conclude outcome again w).2 = view w := by
  refine q.conclude_view hnotify (fun thread part buffer _ => ?_) again
  cases outcome with
  | ok b => exact b.sort_keeps (hasking b.machine) thread part buffer w
  | error e => rfl

theorem fabric_conclude (outcome : Except Failure (Binding σ)) (again : Bool) (w : World σ)
    (q : Request) : (q.conclude outcome again w).2.fabric = w.fabric :=
  q.conclude_keeps (fun _ => ignoresAsking_fabric) World.fabric_notify outcome again w

end Request

theorem Registry.sort_eq (r : Registry σ) (thread : Thread) (c : Context) (s : Source)
    (part : Segment) (buffer : Array Int32) (w : World σ) :
    r.sort thread c s part buffer w =
      (sortWithOutcome thread part buffer (r.bind c s w).2.2 (r.bind c s w).1,
        (r.bind c s w).2.1) := by
  unfold Registry.sort sortWith
  split <;> next heq => rw [heq]; rfl

theorem Registry.sortOrEnd_eq (r : Registry σ) (reaction : OnFatal) (thread : Thread) (c : Context)
    (s : Source) (address : Option Nat) (count : Int) (buffer : Array Int32) (w : World σ) :
    r.sortOrEnd reaction thread c s address count buffer w =
      (reported reaction (r.sortAt thread c s address count buffer w).1,
        (r.sortAt thread c s address count buffer w).2) := by
  unfold sortOrEnd reported
  dsimp only
  split <;> next heq => simp only [heq]

theorem through_eq {s : Session σ} {e : Nat} {name : SourceName} {c : Context} {source : Source}
    (hc : s.contexts[e]? = some c) (hs : s.source? name = some source)
    (f : Context → Source → Answer σ × Session σ) : s.through e name f = f c source := by
  simp [Session.through, hc, hs]

namespace Session

section
variable {s : Session σ} {n e : Nat} {name : SourceName} {c : Context} {source : Source}

theorem registry?_lt {r : Registry σ} (h : s.registry? n = some r) : n < s.registries.size :=
  (Array.getElem?_eq_some_iff.1 (Option.join_eq_some_iff.1 h)).1

/-- What a request does: the registry gives its binding or fails to, and the request concludes. -/
theorem perform_on {r : Registry σ} (q : Request) (hr : s.registry? n = some r)
    (hc : s.contexts[e]? = some c) (hs : s.source? name = some source) :
    s.perform (q.on n e name) =
      let (outcome, r', w) := r.bind c source s.world
      let (answer, w') := q.conclude outcome r.isBound w
      (answer, { s.setRegistry n (some r') with world := w' }) := by
  cases q with
  | bind =>
    simp only [Request.on, perform, through_eq hc hs, hr]
    rcases r.bind c source s.world with ⟨e | b, r', w⟩ <;> rfl
  | sort thread buffer =>
    simp only [Request.on, perform, sortThrough, hr, hc, hs, Registry.sort_eq]
    rfl
  | sortAt thread address count buffer =>
    simp only [Request.on, perform, sortThrough, hr, hc, hs, Registry.sortAt, Registry.sort_eq]
    rfl
  | sortOrEnd reaction thread address count buffer =>
    simp only [Request.on, perform, sortThrough, hr, hc, hs, Registry.sortOrEnd_eq,
      Registry.sortAt, Registry.sort_eq]
    rfl

/-- A request that names something the session does not have does nothing. -/
theorem perform_on_absent (q : Request)
    (h : ¬ ∃ r c source, s.registry? n = some r ∧ s.contexts[e]? = some c ∧
      s.source? name = some source) :
    s.perform (q.on n e name) = (.absent, s) := by
  rcases hr : s.registry? n with _ | r <;> rcases hc : s.contexts[e]? with _ | c <;>
    rcases hs : s.source? name with _ | source
  case some.some.some => exact absurd ⟨r, c, source, hr, hc, hs⟩ h
  all_goals cases q <;> simp [Request.on, perform, through, sortThrough, hr, hc, hs]

theorem perform_on_cases (s : Session σ) (q : Request) (n e : Nat) (name : SourceName) :
    (∃ r c source, s.registry? n = some r ∧ s.contexts[e]? = some c ∧
      s.source? name = some source ∧ s.perform (q.on n e name) =
        let (outcome, r', w) := r.bind c source s.world
        let (answer, w') := q.conclude outcome r.isBound w
        (answer, { s.setRegistry n (some r') with world := w' })) ∨
    s.perform (q.on n e name) = (.absent, s) := by
  by_cases h : ∃ r c source, s.registry? n = some r ∧ s.contexts[e]? = some c ∧
      s.source? name = some source
  · obtain ⟨r, c, source, hr, hc, hs⟩ := h
    exact .inl ⟨r, c, source, hr, hc, hs, perform_on q hr hc hs⟩
  · exact .inr (perform_on_absent q h)

end

/-! ### Operations put together

What holds of the session an operation leads to holds in each of the ways it can end. -/

section
variable {s : Session σ} {P : Session σ → Prop}

theorem of_act {α : Type} {x : Act σ α} {answer : α → Session σ → Answer σ × Session σ}
    (ok : ∀ a w, x s.world = (.ok a, w) → P (answer a { s with world := w }).2)
    (error : ∀ e w, x s.world = (.error e, w) → P { s with world := w }) :
    P (s.act x answer).2 := by
  unfold Session.act
  split
  · next a w h => exact ok a w h
  · next e w h => exact error e w h

theorem of_through {e : Nat} {name : SourceName} {f : Context → Source → Answer σ × Session σ}
    (found : ∀ c source, s.contexts[e]? = some c → s.source? name = some source →
      P (f c source).2) (absent : P s) : P (s.through e name f).2 := by
  unfold Session.through
  split
  · next c source hc hs => exact found c source hc hs
  · exact absent

theorem of_change {machine : Nat} {f : World σ → World σ}
    (done : machine < s.world.machines.size → P { s with world := f s.world }) (absent : P s) :
    P (s.change machine f).2 := by
  unfold Session.change
  split
  · next h => exact done h
  · exact absent

/-- What an act leaves alone, and what is done with its result leaves alone, the operation leaves
alone. -/
theorem act_keeps {τ α : Type} {f : World σ → τ} {x : Act σ α} (hx : x.Keeps f)
    {answer : α → Session σ → Answer σ × Session σ}
    (h : ∀ a w, (x s.world).1 = .ok a → f w = f s.world →
      f (answer a { s with world := w }).2.world = f s.world) :
    f (s.act x answer).2.world = f s.world := by
  have hw := hx s.world
  refine of_act (P := fun s' => f s'.world = f s.world) (fun a w heq => ?_)
    fun e w heq => ?_ <;> rw [heq] at hw
  · exact h a w (congrArg Prod.fst heq) hw
  · exact hw

end

/-! ### What an operation can do -/

/-- The operation does one act, on what its names stand for, and goes on with the result. -/
inductive Acts (s : Session σ) : Operation σ → {α : Type} → Act σ α →
    (α → Session σ → Answer σ × Session σ) → Prop
  | enter {thread id} (hid : id < s.world.machines.size) :
    Acts s (.enter thread id) (Managed.enter thread id) fun c s =>
      (.number s.contexts.size, { s with contexts := s.contexts.push c })
  | ensureAttached {thread id} (hid : id < s.world.machines.size) :
    Acts s (.ensureAttached thread id) (Managed.ensureAttached thread id) fun _ s =>
      (.attached (s.world.isAttached thread id), s)
  | newObject {e c className} (hc : s.contexts[e]? = some c) :
    Acts s (.newObject e className) (Managed.newObject c className) fun r s =>
      (.reference s.references.size r, { s with references := s.references.push r })
  | requestHandle {e c} (hc : s.contexts[e]? = some c) :
    Acts s (.requestHandle e) (Managed.requestHandle c) fun _ s => (.done, s)
  | lookup {e name c source} (hc : s.contexts[e]? = some c) (hs : s.source? name = some source) :
    Acts s (.lookup e name) (resolveTarget c source) fun b s =>
      (.found b.holdsObject, { s with world := b.release s.world })
  | resolve {e name c source} (hc : s.contexts[e]? = some c) (hs : s.source? name = some source) :
    Acts s (.resolve e name) (Bridge.resolve c source) fun b s =>
      (.resolved s.bindings.size b, { s with bindings := s.bindings.push (some b) })
  | invoke {thread holder q b} (hb : s.held? holder = some (some b)) :
    Acts s (.invoke thread holder q) (b.invoke thread q) fun answer s => (.order answer, s)

/-- The operation changes a runtime and does nothing else. -/
inductive Changes : Operation σ → Nat → (World σ → World σ) → Prop
  | define (id : Nat) (k : Class σ) : Changes (.define id k) id (·.update id (·.define k))
  | inject (id : Nat) (f : Fault) :
    Changes (.inject id f) id (·.update id fun m => { m with faults := m.faults.inject f })
  | clearFaults (id : Nat) :
    Changes (.clearFaults id) id (·.update id fun m => { m with faults := {} })
  | detach (thread : Thread) (id : Nat) : Changes (.detach thread id) id (·.detach thread id)

/-- What an operation answers and the session it leads to: the session as it was if it names
something that is not there, and else what it does with what its names stand for. -/
inductive Effect (s : Session σ) : Operation σ → Answer σ × Session σ → Prop
  | none {op a} (ha : a = .absent ∨ a = .unbound) : Effect s op (a, s)
  | create (ks : List (Class σ)) : Effect s (.create ks)
    (.number s.world.machines.size, { s with world := s.world.create ks })
  | change {op id g} (h : Changes op id g) (hid : id < s.world.machines.size) :
    Effect s op (.done, { s with world := g s.world })
  | act {op} {α : Type} {x : Act σ α} {answer} (h : Acts s op x answer) :
    Effect s op (s.act x answer)
  | newRegistry : Effect s .newRegistry
    (.number s.registries.size, { s with registries := s.registries.push (some {}) })
  | dropRegistry {n r} (hr : s.registry? n = some r) : Effect s (.dropRegistry n)
    (.done, { s.setRegistry n none with world := r.release s.world })
  | dropBinding {n b} (hb : s.binding? n = some b) : Effect s (.dropBinding n)
    (.done, { s with bindings := s.bindings.setIfInBounds n none, world := b.release s.world })
  | request {n e name r c source} (q : Request) (hr : s.registry? n = some r)
    (hc : s.contexts[e]? = some c) (hs : s.source? name = some source) :
    Effect s (q.on n e name)
      (let (outcome, r', w) := r.bind c source s.world
      let (answer, w') := q.conclude outcome r.isBound w
      (answer, { s.setRegistry n (some r') with world := w' }))
  | sortFresh {thread e name buffer c source} (hc : s.contexts[e]? = some c)
    (hs : s.source? name = some source) : Effect s (.sortFresh thread e name buffer)
      (s.finish (Bridge.sortFresh thread c source (.whole buffer) buffer s.world))
  | sortBound {thread holder buffer b} (hb : s.held? holder = some (some b)) :
    Effect s (.sortBound thread holder buffer)
      (s.finish (b.sort thread (.whole buffer) buffer s.world))

section
variable {s : Session σ}

theorem Effect.of_changes {op : Operation σ} {id : Nat} {g : World σ → World σ}
    (h : Changes op id g) : Effect s op (s.change id g) := by
  unfold Session.change
  split
  · next hid => exact .change h hid
  · exact .none (.inl rfl)

theorem Effect.of_request (s : Session σ) (q : Request) (n e : Nat) (name : SourceName) :
    Effect s (q.on n e name) (s.perform (q.on n e name)) := by
  rcases perform_on_cases s q n e name with ⟨r, c, source, hr, hc, hs, h⟩ | h <;> rw [h]
  · exact .request q hr hc hs
  · exact .none (.inl rfl)

theorem Effect.of_through {op : Operation σ} {e : Nat} {name : SourceName}
    {f : Context → Source → Answer σ × Session σ}
    (h : ∀ c source, s.contexts[e]? = some c → s.source? name = some source →
      Effect s op (f c source)) : Effect s op (s.through e name f) := by
  unfold Session.through
  split
  · next c source hc hs => exact h c source hc hs
  · exact .none (.inl rfl)

end

/-- Every operation does one of these. -/
theorem effect (s : Session σ) (op : Operation σ) : Effect s op (s.perform op) := by
  cases op with
  | create ks => exact .create ks
  | define id k => exact .of_changes (.define id k)
  | inject id f => exact .of_changes (.inject id f)
  | clearFaults id => exact .of_changes (.clearFaults id)
  | detach thread id => exact .of_changes (.detach thread id)
  | enter thread id =>
    simp only [perform]
    split
    · next hid => exact .act (.enter hid)
    · exact .none (.inl rfl)
  | ensureAttached thread id =>
    simp only [perform]
    split
    · next hid => exact .act (.ensureAttached hid)
    · exact .none (.inl rfl)
  | newObject e className =>
    simp only [perform]
    split
    · next hc => exact .act (.newObject hc)
    · exact .none (.inl rfl)
  | requestHandle e =>
    simp only [perform]
    split
    · next hc => exact .act (.requestHandle hc)
    · exact .none (.inl rfl)
  | lookup e name => exact .of_through fun c source hc hs => .act (.lookup hc hs)
  | resolve e name => exact .of_through fun c source hc hs => .act (.resolve hc hs)
  | newRegistry => exact .newRegistry
  | dropRegistry n =>
    simp only [perform]
    split
    · next hr => exact .dropRegistry hr
    · exact .none (.inl rfl)
  | dropBinding n =>
    simp only [perform]
    split
    · next hb => exact .dropBinding hb
    · exact .none (.inl rfl)
  | bind n e name => exact .of_request s .bind n e name
  | sort thread n e name buffer => exact .of_request s (.sort thread buffer) n e name
  | sortAt thread n e name address count buffer =>
    exact .of_request s (.sortAt thread address count buffer) n e name
  | sortOrEnd reaction thread n e name address count buffer =>
    exact .of_request s (.sortOrEnd reaction thread address count buffer) n e name
  | sortFresh thread e name buffer =>
    exact .of_through fun c source hc hs => .sortFresh hc hs
  | sortBound thread holder buffer =>
    simp only [perform]
    split
    · next hb => exact .sortBound hb
    · exact .none (.inr rfl)
    · exact .none (.inl rfl)
  | invoke thread holder q =>
    simp only [perform]
    split
    · next hb => exact .act (.invoke hb)
    · exact .none (.inr rfl)
    · exact .none (.inl rfl)

end Session
end CallBridge.Bridge
