import CallBridge.Proofs.Bridge.EntryPoints
import CallBridge.Proofs.Bridge.Requests

/-!
# Failing to bind

A request of an unbound registry fails in its resolution or, once the registry is bound, at a
question. The stage of the failure tells which. A failed resolution is as if nothing had been asked,
but for what was counted of it and the diagnostics (`Session.Undone`): in particular whatever is
asked of the registry next goes as it would with a new one (`Session.LikeNew`).
-/

namespace CallBridge

/-- A walk fails as one of its questions does. -/
theorem DecisionTree.follow_error {σ ε α ρ : Type} {ask : Comparer σ ε α} {P : ε → Prop}
    (h : ∀ left right buffer memory e, (ask left right buffer memory).1 = .error e → P e)
    (t : DecisionTree ρ) (buffer : Array α) (memory : σ) {e : ε}
    (he : (t.follow ask buffer memory).result = .error e) : P e := by
  induction t generalizing buffer memory with
  | done r => cases he
  | exchange i j next ih => exact ih _ _ he
  | compare left right next ih =>
    have hask := h left right buffer memory
    simp only [follow] at he
    split at he
    · exact ih _ _ _ he
    · next heq =>
      rw [heq] at hask
      exact hask e (congrArg Except.error (Except.error.inj he))

namespace Managed
variable {σ : Type}

/-- All that a runtime counts but the handles asked for and the methods looked up. -/
def Counters.besides (c : Counters) : Counters := { c with handleRequests := 0, methodLookups := 0 }

/-- From one world to the other, only handles and lookups were counted and diagnostics written. -/
structure World.Spared (w w' : World σ) : Prop where
  fabric : w'.fabric = w.fabric
  attached : w'.attached = w.attached
  memory : w'.memory = w.memory
  counts : ∀ id, (w'.counters id).besides = (w.counters id).besides

namespace World.Spared
variable {w w' : World σ}

theorem refl (w : World σ) : w.Spared w := ⟨rfl, rfl, rfl, fun _ => rfl⟩

theorem count (h : w.Spared w') (machine : Nat) {f : Counters → Counters}
    (hf : ∀ c, (f c).besides = c.besides) : w.Spared (w'.count machine f) := by
  refine ⟨(fabric_count ..).trans h.fabric, h.attached, h.memory, fun id => ?_⟩
  rw [counters_count, ← h.counts]
  split
  · exact hf _
  · rfl

theorem notify (h : w.Spared w') (severity : Diagnostic.Severity) (event : String)
    (fields : Json) : w.Spared (w'.notify severity event fields) :=
  ⟨h.fabric, h.attached, h.memory, h.counts⟩

theorem of_tried {id : Nat} (h : Bridge.Tried w id w') : w.Spared w' := by
  have hhandle := (refl w).count id (f := Counters.countHandle) fun _ => rfl
  cases h with
  | nothing => exact refl w
  | handle => exact hhandle
  | method => exact hhandle.count id fun _ => rfl

end World.Spared
end Managed

namespace Bridge
open Managed

variable {σ : Type}

/-! ### Failures at a question -/

theorem Binding.invoke_stage (b : Binding σ) (thread : Thread) (x : Question) (w : World σ)
    {f : Failure} (h : (b.invoke thread x w).1 = .error f) : f.stage? = none := by
  have hreply := congrArg Prod.fst (b.invoke_reply thread x w)
  rw [h, reply] at hreply
  split at hreply
  · rw [Except.error.inj hreply]
    rfl
  · split at hreply
    · rw [Except.error.inj hreply]
      rfl
    · cases hreply

theorem Binding.sort_stage (b : Binding σ) (thread : Thread) (part : Segment)
    (buffer : Array Int32) (w : World σ) {f : Failure}
    (h : (b.sort thread part buffer w).result = .error f) : f.stage? = none :=
  DecisionTree.follow_error (P := fun f => f.stage? = none)
    (fun left right buffer w _ => b.invoke_stage thread (question left right buffer) w) _ _ _ h

/-! ### How a request concludes -/

/-- The buffer that an answer gives back. -/
def Answer.buffer? : Answer σ → Option (Array Int32)
  | .sorted _ buffer => some buffer
  | _ => none

/-- The buffer that a request is to sort. -/
def Request.buffer? : Request → Option (Array Int32)
  | bind => none
  | sort _ buffer | sortAt _ _ _ buffer | sortOrEnd _ _ _ _ buffer => some buffer

namespace Request
variable (q : Request)

/-- With a binding, a request fails at a question. -/
theorem conclude_stage {b : Binding σ} {again : Bool} {w : World σ} {f : Failure}
    (h : (q.conclude (.ok b) again w).1.failure? = some f) : q ≠ bind ∧ f.stage? = none := by
  have hsort : ∀ {thread part buffer} {sorted : Sorted σ},
      sorted.result = (sortWithOutcome thread part buffer w (.ok b)).result →
        (conclude.finish sorted).1.failure? = some f → f.stage? = none := by
    intro thread part buffer sorted hsorted hf
    rcases hresult : sorted.result with e | u
    · rw [conclude.finish, hresult] at hf
      obtain rfl : e = f := Option.some.inj hf
      exact b.sort_stage thread part buffer w (hsorted.symm.trans hresult)
    · rw [conclude.finish, hresult] at hf
      cases hf
  cases q with
  | bind => cases h
  | sort thread buffer => exact ⟨nofun, hsort rfl h⟩
  | sortAt thread address count buffer => exact ⟨nofun, hsort rfl h⟩
  | sortOrEnd reaction thread address count buffer =>
    exact ⟨nofun, hsort (reported_result reaction _) h⟩

/-- Without one, it fails as the resolution did and gives back the buffer it was given. -/
theorem conclude_error {w w' : World σ} (h : w.Spared w') (f : Failure) (again : Bool) :
    (q.conclude (.error f) again w').1.failure? = some f ∧
      (q.conclude (.error f) again w').1.buffer? = q.buffer? ∧
      w.Spared (q.conclude (.error f) again w').2 := by
  refine ⟨q.failure?_conclude f again w', ?_⟩
  cases q with
  | bind => exact ⟨rfl, h⟩
  | sort thread buffer => exact ⟨rfl, h⟩
  | sortAt thread address count buffer => exact ⟨rfl, h⟩
  | sortOrEnd reaction thread address count buffer => exact ⟨rfl, h.notify ..⟩

end Request

/-- An unbound registry is bound, or the resolution failed and left it as it was. -/
theorem Registry.bind_unbound_cases (c : Context) (source : Source) (w : World σ) :
    (∃ b w', Registry.bind ⟨none⟩ c source w = (.ok b, ⟨some b⟩, w')) ∨
      ∃ f w', Registry.bind ⟨none⟩ c source w = (.error f, ⟨none⟩, w') ∧ f.stage?.isSome ∧
        w.Spared w' := by
  unfold Registry.bind Registry.establish
  rcases resolve_cases c source w with ⟨entry, -, -, hres⟩ | ⟨f, w', -, hres, hstage, hw⟩
  · rw [hres]
    exact .inl ⟨_, _, rfl⟩
  · rw [hres]
    exact .inr ⟨f, _, rfl, hstage, (World.Spared.of_tried hw).notify ..⟩

namespace Session
variable {s : Session σ} {n e : Nat} {name : SourceName}

/-! ### A registry without a binding -/

/-- Whatever is asked of the registry goes as it would with a new one: the answer, the world after
it, and what the registry holds then. -/
def LikeNew (s : Session σ) (n : Nat) : Prop :=
  ∀ (q : Request) e name,
    let new := (s.perform .newRegistry).2
    let here := s.perform (q.on n e name)
    let there := new.perform (q.on s.registries.size e name)
    here.1 = there.1 ∧ here.2.world = there.2.world ∧
      Session.registry? here.2 n = Session.registry? there.2 s.registries.size

theorem likeNew_of_unbound (h : s.registry? n = some ⟨none⟩) : s.LikeNew n := by
  intro q e name new here there
  have hnew : new.registry? s.registries.size = some ⟨none⟩ := by
    simp [new, perform, Session.registry?]
  have hnamed : ∀ c source, s.contexts[e]? = some c → s.source? name = some source →
      new.contexts[e]? = some c ∧ new.source? name = some source := by
    intro c source hc hs
    refine ⟨hc, ?_⟩
    cases name <;> exact hs
  by_cases hfound : ∃ r c source, s.registry? n = some r ∧ s.contexts[e]? = some c ∧
      s.source? name = some source
  · obtain ⟨_, c, source, -, hc, hs⟩ := hfound
    obtain ⟨hc', hs'⟩ := hnamed c source hc hs
    have hhere : here = _ := perform_on q h hc hs
    have hthere : there = _ := perform_on q hnew hc' hs'
    rw [hhere, hthere]
    refine ⟨rfl, rfl, ?_⟩
    exact (registry?_setRegistry h _ _).trans (registry?_setRegistry hnew _ _).symm
  · have hnone : ¬ ∃ r c source, new.registry? s.registries.size = some r ∧
        new.contexts[e]? = some c ∧ new.source? name = some source := by
      rintro ⟨_, c, source, -, hc, hs⟩
      refine hfound ⟨_, c, source, h, hc, ?_⟩
      cases name <;> exact hs
    have hhere : here = _ := perform_on_absent q hfound
    have hthere : there = _ := perform_on_absent q hnone
    rw [hhere, hthere]
    exact ⟨rfl, rfl, h.trans hnew.symm⟩

/-- Of the session, at most counts of resolutions and diagnostics are different, and the registry is
as good as new. -/
structure Undone (s s' : Session σ) (n : Nat) : Prop where
  unbound : s'.registry? n = some ⟨none⟩
  session : s' = { s with world := s'.world }
  world : s.world.Spared s'.world
  likeNew : s'.LikeNew n

theorem perform_on_failed (q : Request) (unbound : s.registry? n = some ⟨none⟩) {c : Context}
    {source : Source} (hc : s.contexts[e]? = some c) (hs : s.source? name = some source)
    {f : Failure} {w : World σ} (hb : Registry.bind ⟨none⟩ c source s.world = (.error f, ⟨none⟩, w))
    (hw : s.world.Spared w) :
    let after := s.perform (q.on n e name)
    after.1.failure? = some f ∧ after.1.buffer? = q.buffer? ∧ Undone s after.2 n := by
  intro after
  obtain ⟨hfailure, hbuffer, hspared⟩ := q.conclude_error hw f false
  have hafter : after = ((q.conclude (.error f) false w).1,
      { s with world := (q.conclude (.error f) false w).2 }) := by
    simp only [after, perform_on q unbound hc hs, hb, setRegistry_self unbound]
    rfl
  have hunbound : Session.registry? after.2 n = some ⟨none⟩ := by
    rw [hafter]
    exact unbound
  rw [hafter] at hunbound ⊢
  exact ⟨hfailure, hbuffer, hunbound, rfl, hspared, likeNew_of_unbound hunbound⟩

/-- A request of an unbound registry that fails in its resolution, as binding always does, is
undone. One that fails later has bound the registry. -/
theorem failed_binding_undone (q : Request) (unbound : s.registry? n = some ⟨none⟩) {f : Failure}
    (h : (s.perform (q.on n e name)).1.failure? = some f) :
    let after := s.perform (q.on n e name)
    (q = .bind → f.stage?.isSome) ∧
      (f.stage?.isSome → Undone s after.2 n ∧ after.1.buffer? = q.buffer?) ∧
      (f.stage? = none → ∃ b, Session.registry? after.2 n = some ⟨some b⟩) := by
  intro after
  rcases perform_on_cases s q n e name with ⟨r, c, source, hr, hc, hs, hperform⟩ | habsent
  · obtain rfl : r = ⟨none⟩ := Option.some.inj (hr.symm.trans unbound)
    rcases Registry.bind_unbound_cases c source s.world with
      ⟨b, w, hb⟩ | ⟨f', w, hb, hstage, hw⟩
    · rw [hb] at hperform
      have hlate : q ≠ .bind ∧ f.stage? = none := by
        rw [hperform] at h
        exact q.conclude_stage h
      have hbound : Session.registry? after.2 n = some ⟨some b⟩ := by
        simp only [after, hperform]
        exact registry?_setRegistry unbound _ _
      refine ⟨fun hq => absurd hq hlate.1, fun hsome => ?_, fun _ => ⟨b, hbound⟩⟩
      rw [hlate.2] at hsome
      cases hsome
    · obtain ⟨hfailure, hbuffer, hundone⟩ := perform_on_failed q unbound hc hs hb hw
      obtain rfl : f' = f := Option.some.inj (hfailure.symm.trans h)
      refine ⟨fun _ => hstage, fun _ => ⟨hundone, hbuffer⟩, fun hnone => ?_⟩
      rw [hnone] at hstage
      cases hstage
  · rw [habsent] at h
    cases h

/-- A runtime whose comparators throw. -/
def throwing : List (Operation Unit) :=
  [.create Class.benchmarks, .enter .main 0, .newRegistry, .inject 0 .invoke]

theorem failed_binding_undone_broken :
    let s := (start ()).run throwing
    let name : SourceName := .ofClass brokenClass .staticComparator
    let op : Operation Unit := .sort .main 0 0 name #[2, 1]
    s.registry? 0 = some ⟨none⟩ ∧
      (s.perform op).1.failure? = some (.methodMissing true "qsortCompare" "(JJ)I" brokenClass) ∧
      Undone s (s.perform op).2 0 ∧ (s.perform op).1.buffer? = some #[2, 1] := by
  intro s name op
  have unbound : s.registry? 0 = some ⟨none⟩ := rfl
  have hfailed : (s.perform op).1.failure? =
      some (.methodMissing true "qsortCompare" "(JJ)I" brokenClass) := rfl
  obtain ⟨-, hundone, -⟩ :=
    @failed_binding_undone _ s 0 0 name (.sort .main #[2, 1]) unbound _ hfailed
  exact ⟨unbound, hfailed, hundone rfl⟩

/-- A sort whose first question fails leaves the registry bound, the question counted and the buffer
changed. -/
theorem failed_sort_bound :
    let s := (start ()).run throwing
    let op : Operation Unit :=
      .sort .main 0 0 (.ofClass benchmarkClass .staticComparator) #[2, 1]
    s.registry? 0 = some ⟨none⟩ ∧ (s.perform op).1.failure? = some .thrown ∧
      Session.registry? (s.perform op).2 0 ≠ some ⟨none⟩ ∧
      (s.perform op).1.buffer? ≠ some #[2, 1] ∧
      ((s.perform op).2.world.counters 0).invocations ≠ (s.world.counters 0).invocations := by
  intro s op
  have unbound : s.registry? 0 = some ⟨none⟩ := rfl
  have hperform : s.perform op = _ := perform_on (.sort .main #[2, 1]) unbound rfl rfl
  have hfailed : (s.perform op).1.failure? = some .thrown := by
    rw [hperform]
    cbv
  have hbuffer : (s.perform op).1.buffer? = some #[1, 2] := by
    rw [hperform]
    cbv
  have hcounted : ((s.perform op).2.world.counters 0).invocations = 1 := by
    rw [hperform]
    cbv
  have hbound : Session.registry? (s.perform op).2 0 =
      some ⟨some ⟨0, 0, .onClass, .staticComparator, .ascending⟩⟩ := rfl
  refine ⟨unbound, hfailed, ?_, ?_, ?_⟩
  · rw [hbound]
    simp
  · rw [hbuffer]
    decide
  · rw [hcounted]
    exact Nat.one_ne_zero

end Session
end Bridge
end CallBridge
