import CallBridge.Proofs.Bridge.Classes
import CallBridge.Proofs.Bridge.EntryPoints

/-!
# Bound for good

A registry that is bound stays bound to the same binding until it is dropped: whatever is asked of
it gives this binding or uses it, and costs no resolution (`Session.Stands`). The binding holds the
body of the method that its source stood for when the registry was bound (`Session.Origin`), and a
call goes to this body even if the class has been defined anew. A resolution made later follows the
newest definition (`Session.Follows`).
-/

namespace CallBridge.Managed
open Bridge

variable {σ : Type}

/-- What a runtime has counted of resolutions: the handles asked for, the methods looked up and the
references. -/
def World.costs (w : World σ) (id : Nat) : Nat × Globals :=
  ((w.counters id).handleRequests, w.globals id)

theorem ignoresAsking_costs {id : Nat} : IgnoresAsking (World.costs (σ := σ)) id := by
  have hcount : ∀ (w : World σ) machine {f : Counters → Counters},
      (∀ c, (f c).handleRequests = c.handleRequests ∧ (f c).globals = c.globals) →
        (w.count machine f).costs = w.costs := by
    intro w machine f hf
    funext id
    simp only [World.costs, World.globals, World.counters_count]
    split
    · rw [(hf _).1, (hf _).2]
    · rfl
  refine ⟨fun w => ?_, fun w thread => ?_, fun w => ?_, fun w memory => rfl⟩
  · exact hcount w id fun c => ⟨rfl, rfl⟩
  · exact hcount w id fun c => ⟨rfl, rfl⟩
  · exact hcount w id fun c => ⟨rfl, rfl⟩

end CallBridge.Managed

namespace CallBridge.Bridge
open Managed

variable {σ τ : Type}

/-- A request that finds a binding costs no resolution. -/
theorem Request.costs_conclude (q : Request) (b : Binding σ) (again : Bool) (w : World σ) :
    (q.conclude (.ok b) again w).2.costs = w.costs :=
  conclude_view (fun _ _ _ _ => rfl) q
    (fun thread part buffer _ => b.sort_keeps ignoresAsking_costs thread part buffer w) again

/-- A resolution that an operation asks for comes to the method that the source stands for. -/
theorem Operation.resolution_ok_iff {op : Operation σ} {c : Context} {source : Source}
    {w : World σ} {b : Binding σ} :
    (op.resolution c source w).1 = .ok b ↔ op.reaches c source.method w = true ∧
      ∃ entry, w.found? c source = some entry ∧ b = source.bindingTo c w entry := by
  rw [resolution, reaches]
  cases op.isDirect with
  | true =>
    rw [if_pos rfl, Bool.true_or]
    rcases resolveTarget_found c source w with ⟨entry, hfound, h⟩ | ⟨e, w', hfound, h, -⟩
    · simp [h, hfound, eq_comm]
    · simp [h, hfound]
  | false =>
    rw [if_neg Bool.false_ne_true, Bool.false_or, Bool.and_eq_true, Bool.not_eq_true']
    rcases resolve_cases c source w with ⟨entry, hreach, hfound, h⟩ | ⟨e, w', hnone, h, -⟩
    · simp [h, hfound, hreach, eq_comm]
    · rw [h]
      refine iff_of_false (by simp) ?_
      rintro ⟨hreach, entry, hfound, -⟩
      rw [hnone hreach] at hfound
      cases hfound

namespace Session
variable {s : Session σ} {n : Nat} {b : Binding σ}

/-! ### A registry that is bound -/

/-- The registry is bound, and whatever is asked of it gives this binding or uses it, and costs no
resolution. -/
structure Stands (s : Session σ) (n : Nat) (b : Binding σ) : Prop where
  held : s.registry? n = some ⟨some b⟩
  bind : ∀ e name c source, s.contexts[e]? = some c → s.source? name = some source →
    s.perform (.bind n e name) = (.bound b true, s)
  asked : ∀ (q : Request) e name c source, s.contexts[e]? = some c →
    s.source? name = some source → s.perform (q.on n e name) =
      let (answer, w) := q.conclude (.ok b) true s.world
      (answer, { s with world := w })
  costs : ∀ (q : Request) e name, (s.perform (q.on n e name)).2.world.costs = s.world.costs

theorem perform_on_bound (h : s.registry? n = some ⟨some b⟩) (q : Request) {e : Nat}
    {name : SourceName} {c : Context} {source : Source} (hc : s.contexts[e]? = some c)
    (hs : s.source? name = some source) :
    s.perform (q.on n e name) =
      let (answer, w) := q.conclude (.ok b) true s.world
      (answer, { s with world := w }) := by
  rw [perform_on q h hc hs, Registry.bind_of_bound rfl]
  dsimp only
  rw [setRegistry_self h]
  rfl

theorem stands_of_bound (h : s.registry? n = some ⟨some b⟩) : Stands s n b := by
  refine ⟨h, fun e name c source hc hs => ?_, fun q e name c source hc hs => ?_,
    fun q e name => ?_⟩
  · exact perform_on_bound h .bind hc hs
  · exact perform_on_bound h q hc hs
  · rcases perform_on_cases s q n e name with ⟨_, c, source, -, hc, hs, -⟩ | habsent
    · rw [perform_on_bound h q hc hs]
      exact q.costs_conclude b true s.world
    · rw [habsent]

theorem bound_perform (h : s.registry? n = some ⟨some b⟩) {op : Operation σ}
    (hop : op ≠ .dropRegistry n) : Session.registry? (s.perform op).2 n = some ⟨some b⟩ := by
  cases slot_perform s op n with
  | kept hkept => exact hkept.trans h
  | opened _ absent =>
    rw [h] at absent
    cases absent
  | dropped hdrop => exact absurd hdrop hop
  | bound _ unbound =>
    rw [h] at unbound
    cases unbound

theorem bound_run (h : s.registry? n = some ⟨some b⟩) {ops : List (Operation σ)}
    (hops : .dropRegistry n ∉ ops) : Session.registry? (s.run ops) n = some ⟨some b⟩ := by
  induction ops generalizing s with
  | nil => exact h
  | cons op ops ih =>
    rw [List.mem_cons, not_or] at hops
    exact ih (bound_perform h (Ne.symm hops.1)) hops.2

/-! ### Where a binding comes from -/

/-- The operation bound the registry, which was unbound before: through the context, its source
named the class, and this was the first method of the class that fits. -/
structure Origin (s : Session σ) (n : Nat) (b : Binding σ) (op : Operation σ) (className : String)
    (entry : MethodEntry σ) : Prop where
  unbound : s.registry? n = some ⟨none⟩
  bound : Session.registry? (s.perform op).2 n = some ⟨some b⟩
  found : ∃ (q : Request) (e : Nat) (name : SourceName) (c : Context) (source : Source),
    op = q.on n e name ∧ s.contexts[e]? = some c ∧ s.source? name = some source ∧
      s.world.className? c source = some className ∧
      s.world.entry? c.machine className source = some entry ∧
      b = source.bindingTo c s.world entry

theorem exists_origin {op : Operation σ} (h : Session.registry? (s.perform op).2 n = some ⟨some b⟩)
    (hnew : s.registry? n ≠ some ⟨some b⟩) :
    ∃ className entry, Origin s n b op className entry := by
  cases slot_perform s op n with
  | kept hkept => exact absurd (hkept.symm.trans h) hnew
  | opened _ _ hopened =>
    rw [h] at hopened
    cases hopened
  | dropped _ hdropped =>
    rw [h] at hdropped
    cases hdropped
  | @bound q e name c source b' hop unbound hc hs resolved hbound =>
    obtain rfl : b' = b := by
      rw [h] at hbound
      cases hbound
      rfl
    rcases resolve_cases c source s.world with ⟨entry, -, hfound, hres⟩ | ⟨e', w', -, hres, -⟩
    · rw [hres] at resolved
      obtain ⟨className, hname, hentry⟩ := Option.bind_eq_some_iff.1 hfound
      exact ⟨className, entry, unbound, h, q, e, name, c, source, hop, hc, hs, hname, hentry,
        (Except.ok.inj resolved).symm⟩
    · rw [hres] at resolved
      cases resolved

/-- In every run, a binding of a registry comes from one of the operations. -/
theorem exists_origin_run (memory : σ) (ops : List (Operation σ))
    (h : Session.registry? ((start memory).run ops) n = some ⟨some b⟩) :
    ∃ earlier op later className entry, ops = earlier ++ op :: later ∧
      Origin ((start memory).run earlier) n b op className entry := by
  induction ops using List.reverseRecOn with
  | nil =>
    unfold Session.registry? at h
    simp [run, start] at h
  | append_singleton ops op ih =>
    by_cases hbefore : Session.registry? ((start memory).run ops) n = some ⟨some b⟩
    · obtain ⟨earlier, op', later, className, entry, hops, horigin⟩ := ih hbefore
      refine ⟨earlier, op', later ++ [op], className, entry, ?_, horigin⟩
      rw [hops, List.append_assoc, List.cons_append]
    · rw [run_append] at h
      obtain ⟨className, entry, horigin⟩ := exists_origin h hbefore
      exact ⟨ops, op, [], className, entry, rfl, horigin⟩

/-! ### Calls and later resolutions -/

/-- A call through the registry answers as the body does, unless a fault forbids it. -/
def Calls (s : Session σ) (n machine : Nat) (body : Body σ) : Prop :=
  ∀ thread x, let (answer, s') := s.perform (.invoke thread (.registry n) x)
    (answer, s'.world.memory) = match reply machine thread body x s.world with
      | (.ok order, memory) => (.order order, memory)
      | (.error e, memory) => (.failed e, memory)

theorem calls_of_bound (h : s.registry? n = some ⟨some b⟩) : s.Calls n b.machine b.body := by
  intro thread x
  have hheld : s.held? (.registry n) = some (some b) := by rw [held?, h]; rfl
  simp only [perform, hheld, Session.act, ← Binding.invoke_reply]
  rcases b.invoke thread x s.world with ⟨e | order, w⟩ <;> rfl

/-- Every operation that resolves a source of this class in a runtime uses the class as it is given
here, or fails if it has no method that fits. -/
def Follows (s : Session σ) (id : Nat) (k : Class σ) : Prop :=
  ∀ (op : Operation σ) e name c source, Resolves s e name op → s.contexts[e]? = some c →
    s.source? name = some source → c.machine = id → s.world.className? c source = some k.name →
      let outcome := (op.resolution c source s.world).1
      Delivers s op outcome ∧ ∀ b, outcome = .ok b ↔ op.reaches c source.method s.world = true ∧
        ∃ entry, k.find? source.method source.isStatic = some entry ∧
          b = source.bindingTo c s.world entry

theorem follows_of_class {id : Nat} {k : Class σ} (h : s.world.class? id k.name = some k) :
    s.Follows id k := by
  intro op e name c source hres hc hs hmachine hclass
  refine ⟨hres.delivers hc hs, fun b => ?_⟩
  have hfound : s.world.found? c source = k.find? source.method source.isStatic := by
    rw [World.found?, hclass, Option.bind_some, World.entry?, hmachine, h, Option.bind_some]
  rw [Operation.resolution_ok_iff, hfound]

/-- Once a registry is bound, it stands by its binding until it is dropped, and a call goes to the
body that was found when it was bound; a later resolution follows the newest definition. -/
theorem bound_for_good (memory : σ) (before after : List (Operation σ)) {n : Nat} {b : Binding σ}
    (hbound : Session.registry? ((start memory).run before) n = some ⟨some b⟩)
    (hkept : .dropRegistry n ∉ after) :
    let s := (start memory).run (before ++ after)
    s.Stands n b ∧
      (∃ earlier op later className entry, before = earlier ++ op :: later ∧
        Origin ((start memory).run earlier) n b op className entry ∧
        s.Calls n b.machine entry.body) ∧
      ∀ id k, Newest (start memory) (before ++ after) id k → s.Follows id k := by
  intro s
  have h : s.registry? n = some ⟨some b⟩ := by
    have hrun := bound_run hbound hkept
    rwa [← run_append] at hrun
  obtain ⟨earlier, op, later, className, entry, hops, horigin⟩ :=
    exists_origin_run memory before hbound
  refine ⟨stands_of_bound h, ⟨earlier, op, later, className, entry, hops, horigin, ?_⟩,
    fun id k hk => follows_of_class hk.class?_eq⟩
  obtain ⟨q, e, name, c, source, -, -, -, -, -, hb⟩ := horigin.found
  have hbody : b.body = entry.body := by rw [hb]; rfl
  rw [← hbody]
  exact calls_of_bound h

def firstUse : List (Operation Unit) :=
  [.create Class.benchmarks, .enter .main 0, .newRegistry, .newRegistry,
    .bind 0 0 (.ofClass benchmarkClass .staticComparator)]

/-- The class of the static comparator, defined anew. -/
def sevens : Class Unit :=
  Class.add ⟨benchmarkClass, []⟩ .staticComparator true (.remembering fun _ m => (7, m))

/-- The first registry goes on calling the old comparator, and the second one is bound to the new
one. -/
theorem bound_for_good_redefined :
    let b : Binding Unit := ⟨0, 0, .onClass, .staticComparator, .ascending⟩
    let s := (start ()).run (firstUse ++ [.define 0 sevens])
    Session.registry? ((start ()).run firstUse) 0 = some ⟨some b⟩ ∧ s.Stands 0 b ∧
      (s.perform (.invoke .main (.registry 0) (question 0 1 #[2, 1]))).1 = .order 1 ∧
      ∃ b' : Binding Unit,
        b'.body.answer (question 0 1 #[2, 1]) () = (7, ()) ∧ Session.registry?
          (s.perform (.bind 1 0 (.ofClass benchmarkClass .staticComparator))).2 1 =
            some ⟨some b'⟩ := by
  intro b s
  have hbound : Session.registry? ((start ()).run firstUse) 0 = some ⟨some b⟩ := rfl
  have hkept : (.dropRegistry 0 : Operation Unit) ∉ [.define 0 sevens] := by simp
  obtain ⟨hstands, ⟨_, op, _, _, entry, -, horigin, hcalls⟩, hfollows⟩ :=
    bound_for_good () firstUse [.define 0 sevens] hbound hkept
  have hbody : entry.body = .ascending := by
    obtain ⟨q, e, name, c, source, -, -, -, -, -, hb⟩ := horigin.found
    exact (congrArg Binding.body hb).symm
  have hnewest : Newest (start ()) (firstUse ++ [.define 0 sevens]) 0 sevens :=
    .defined rfl Nat.zero_lt_one nofun
  obtain ⟨hdelivers, houtcome⟩ := hfollows 0 sevens hnewest
    (.bind 1 0 (.ofClass benchmarkClass .staticComparator)) 0 _ ⟨0, 1⟩
    (.ofClass benchmarkClass .staticComparator) (.bind rfl) rfl rfl rfl rfl
  refine ⟨hbound, hstands, ?_, ?_⟩
  · have hcall := hcalls .main (question 0 1 #[2, 1])
    rw [hbody] at hcall
    exact congrArg Prod.fst hcall
  · let entry' : MethodEntry Unit := ⟨.staticComparator, true, .remembering fun _ m => (7, m)⟩
    have hok := (houtcome _).2 ⟨rfl, entry', rfl, rfl⟩
    rw [hok] at hdelivers
    exact ⟨_, rfl, hdelivers⟩

end Session
end CallBridge.Bridge
