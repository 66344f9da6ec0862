import CallBridge.Bridge.Undisturbed
import CallBridge.Proofs.Bridge.Frames

/-!
# Local references and the contexts that made them

A local reference is meant for the context that made it. Resolution tells contexts apart by the
number of their frame, and every runtime counts its own frames. So a reference is refused by every
other context of its runtime, but a context of another runtime refuses it only if the two are not
the same-numbered contexts of their runtimes (`confined_iff`).
-/

namespace CallBridge.Bridge
open Managed

variable {σ : Type}

/-! ### Resolving an object's method -/

/-- A binding is to the method of a class in a runtime. -/
structure BoundTo (b : Binding σ) (w : World σ) (id : Nat) (className : String) (m : Method) :
    Prop where
  machine : b.machine = id
  method : b.method = m
  variant : b.variant = .onObject
  body : w.body? id className m = some b.body

theorem findMethod_result (id : Nat) (className : String) (m : Method) (w : World σ) :
    (∃ body w', findMethod id className m false w = (.ok body, w') ∧
      w.body? id className m = some body) ∨
    ∃ e w', findMethod id className m false w = (.error e, w') ∧ e.stage? ≠ some .globalRef ∧
      w.body? id className m = none := by
  unfold findMethod
  rw [Act.bind_eq, findClass, World.body?]
  cases hc : w.machines[id]?.bind (·.class? className) with
  | none => exact .inr ⟨_, _, rfl, by simp [Failure.classMissing, Failure.stage?], rfl⟩
  | some c =>
    dsimp only
    rw [Act.bind_eq]
    cases hm : c.find? m false with
    | none => exact .inr ⟨_, _, rfl, by simp [Failure.methodMissing, Failure.stage?], by simp [hm]⟩
    | some entry => exact .inl ⟨_, _, rfl, by simp [hm]⟩

section
variable {c : Context} {r : LocalRef} {m : Method} {w : World σ}

theorem resolveTarget_of_frame_ne (h : r.frame ≠ c.frame) :
    (resolveTarget c (.ofObject r m) w).1 = .error (.foreignFrame r.frame c.frame) := by
  simp [resolveTarget, lookup, Act.bind_eq, classOf, h]

theorem classOf_of_frame_eq (h : r.frame = c.frame) (w : World σ) :
    classOf c r w = match (w.objects c.machine)[r.object]? with
      | some className => (.ok className, w)
      | none => (.error .dangling, w) := by
  have hobj : (w.objects c.machine)[r.object]? =
      w.machines[c.machine]?.bind (·.objects[r.object]?) := by
    unfold World.objects
    cases w.machines[c.machine]? <;> rfl
  rw [hobj]
  exact if_neg (fun hne => hne h)

theorem resolveTarget_of_frame_eq (h : r.frame = c.frame) (m : Method) (w : World σ) :
    (∃ className b, (w.objects c.machine)[r.object]? = some className ∧
      (resolveTarget c (.ofObject r m) w).1 = .ok b ∧ BoundTo b w c.machine className m) ∨
    ∃ e, (resolveTarget c (.ofObject r m) w).1 = .error e ∧ e.stage? ≠ some .globalRef ∧
      ∀ className, (w.objects c.machine)[r.object]? = some className →
        w.body? c.machine className m = none := by
  rw [resolveTarget, Act.bind_eq, lookup, Act.bind_eq, classOf_of_frame_eq h]
  cases ho : (w.objects c.machine)[r.object]? with
  | none => exact .inr ⟨_, rfl, by simp [Failure.dangling, Failure.stage?], by simp⟩
  | some className =>
    dsimp only
    rcases findMethod_result c.machine className m w with ⟨body, w', hf, hb⟩ | ⟨e, w', hf, he, hb⟩
    · rw [hf]
      exact .inl ⟨className, _, rfl, rfl, rfl, rfl, rfl, hb⟩
    · rw [hf]
      refine .inr ⟨e, rfl, he, ?_⟩
      rintro _ ⟨⟩
      exact hb

end

/-! ### Operations that resolve -/

/-- An operation asks for the resolution of a source through the context numbered `e`: directly, or
for a binding of its own, or for a registry that is not bound yet. -/
inductive Resolves (s : Session σ) (e : Nat) (source : SourceName) : Operation σ → Prop
  | lookup : Resolves s e source (.lookup e source)
  | resolve : Resolves s e source (.resolve e source)
  | bind {registry} (unbound : s.registry? registry = some ⟨none⟩) :
    Resolves s e source (.bind registry e source)
  | sort {thread registry buffer} (unbound : s.registry? registry = some ⟨none⟩) :
    Resolves s e source (.sort thread registry e source buffer)
  | sortFresh {thread buffer} : Resolves s e source (.sortFresh thread e source buffer)
  | sortAt {thread registry address count buffer} (unbound : s.registry? registry = some ⟨none⟩) :
    Resolves s e source (.sortAt thread registry e source address count buffer)
  | sortOrEnd {reaction thread registry address count buffer}
      (unbound : s.registry? registry = some ⟨none⟩) :
    Resolves s e source (.sortOrEnd reaction thread registry e source address count buffer)

/-- Whether an operation resolves without asking for the runtime's handle. -/
def Operation.isDirect : Operation σ → Bool
  | .lookup .. => true
  | _ => false

/-- The resolution an operation asks for. -/
def Operation.resolution (op : Operation σ) (c : Context) (s : Source) : Act σ (Binding σ) :=
  if op.isDirect then resolveTarget c s else Bridge.resolve c s

/-- Whether the resolution an operation asks for comes to look at its source. -/
def Operation.reaches (op : Operation σ) (c : Context) (m : Method) (w : World σ) : Bool :=
  op.isDirect || m.isComparator && !w.faulty c.machine .handle

/-- The failure an operation answers with. -/
def Answer.failure? : Answer σ → Option Failure
  | .failed e => some e
  | .sorted (.error e) _ => some e
  | _ => none

/-- What an operation does with the binding that its resolution came to. -/
def Uses (s : Session σ) (b : Binding σ) : Operation σ → Prop
  | op@(.lookup ..) => (s.perform op).1 = .found b.holdsObject
  | op@(.resolve ..) => (s.perform op).1 = .resolved s.bindings.size b
  | op@(.sortFresh thread _ _ buffer) =>
    ∃ w, (s.perform op).1 = .sorted (b.sort thread (.whole buffer) buffer w).result
      (b.sort thread (.whole buffer) buffer w).buffer
  | op@(.bind registry ..) | op@(.sort _ registry ..) | op@(.sortAt _ registry ..)
  | op@(.sortOrEnd _ _ registry ..) => Session.registry? (s.perform op).2 registry = some ⟨some b⟩
  | _ => False

/-- An operation fails as its resolution does, and uses the binding it comes to. -/
def Delivers (s : Session σ) (op : Operation σ) : Except Failure (Binding σ) → Prop
  | .ok b => Uses s b op
  | .error e => (s.perform op).1.failure? = some e

theorem establish_result (c : Context) (s : Source) (w : World σ) :
    (Registry.establish c s w).1 = (resolve c s w).1 := by
  unfold Registry.establish
  split <;> next heq => rw [heq]

theorem bind_unbound (c : Context) (s : Source) (w : World σ) :
    (∃ b w', (resolve c s w).1 = .ok b ∧ Registry.bind ⟨none⟩ c s w = (.ok b, ⟨some b⟩, w')) ∨
      ∃ e w', (resolve c s w).1 = .error e ∧
        Registry.bind ⟨none⟩ c s w = (.error e, ⟨none⟩, w') := by
  rw [← establish_result]
  unfold Registry.bind
  rcases Registry.establish c s w with ⟨e | b, w'⟩
  · exact .inr ⟨e, w', rfl, rfl⟩
  · exact .inl ⟨b, w', rfl, rfl⟩

theorem registry?_setRegistry {s : Session σ} {n : Nat} {r : Registry σ}
    (h : s.registry? n = some r) (r' : Registry σ) (w : World σ) :
    Session.registry? { s.setRegistry n (some r') with world := w } n = some r' := by
  unfold Session.registry? Session.setRegistry
  simp [Array.getElem?_setIfInBounds_self_of_lt (Session.registry?_lt h)]

section
variable {s : Session σ} {e : Nat} {name : SourceName} {op : Operation σ} {c : Context}
  {source : Source}

theorem Request.failure?_conclude (q : Request) (f : Failure) (again : Bool) (w : World σ) :
    (q.conclude (.error f) again w).1.failure? = some f := by
  cases q <;> rfl

/-- A request of an unbound registry fails as the resolution does, or leaves the registry bound to
what it came to. -/
theorem delivers_on (q : Request) {n : Nat} (unbound : s.registry? n = some ⟨none⟩)
    (hc : s.contexts[e]? = some c) (hs : s.source? name = some source) :
    Delivers s (q.on n e name) (Bridge.resolve c source s.world).1 := by
  have hperform := Session.perform_on q unbound hc hs
  rcases bind_unbound c source s.world with ⟨b, w, hres, hb⟩ | ⟨f, w, hres, hb⟩ <;>
    rw [hb] at hperform <;> rw [hres]
  · have hbound : Session.registry? (s.perform (q.on n e name)).2 n = some ⟨some b⟩ := by
      rw [hperform]
      exact registry?_setRegistry unbound ⟨some b⟩ _
    cases q <;> exact hbound
  · rw [Delivers, hperform]
    exact q.failure?_conclude ..

theorem Resolves.delivers (h : Resolves s e name op) (hc : s.contexts[e]? = some c)
    (hs : s.source? name = some source) : Delivers s op (op.resolution c source s.world).1 := by
  cases h with
  | lookup =>
    change Delivers s _ (resolveTarget c source s.world).1
    rcases hres : resolveTarget c source s.world with ⟨e' | b, w⟩ <;>
      simp [Delivers, Uses, Answer.failure?, Session.perform, through_eq hc hs, Session.act, hres]
  | resolve =>
    change Delivers s _ (Bridge.resolve c source s.world).1
    rcases hres : Bridge.resolve c source s.world with ⟨e' | b, w⟩ <;>
      simp [Delivers, Uses, Answer.failure?, Session.perform, through_eq hc hs, Session.act, hres]
  | bind unbound => exact delivers_on .bind unbound hc hs
  | @sort thread _ buffer unbound => exact delivers_on (.sort thread buffer) unbound hc hs
  | @sortAt thread _ address count buffer unbound =>
    exact delivers_on (.sortAt thread address count buffer) unbound hc hs
  | @sortOrEnd reaction thread _ address count buffer unbound =>
    exact delivers_on (.sortOrEnd reaction thread address count buffer) unbound hc hs
  | @sortFresh thread buffer =>
    change Delivers s _ (Bridge.resolve c source s.world).1
    rcases hres : Bridge.resolve c source s.world with ⟨e' | b, w⟩
    · simp [Delivers, Answer.failure?, Session.perform, through_eq hc hs, Session.finish,
        Bridge.sortFresh, sortFreshWith, hres]
    · refine ⟨w, ?_⟩
      simp [Session.perform, through_eq hc hs, Session.finish, Bridge.sortFresh, sortFreshWith,
        hres]

theorem resolution_of_not_reaches (source : Source)
    (h : op.reaches c source.method s.world = false) :
    ∃ f, (op.resolution c source s.world).1 = .error f ∧
      f.stage? = some (if source.method.isComparator then .runtimeHandle else .methodLookup) := by
  have hdirect : op.isDirect = false := by
    cases hd : op.isDirect <;> simp [Operation.reaches, hd] at h ⊢
  rw [Operation.resolution, hdirect, if_neg Bool.false_ne_true, resolve]
  by_cases hm : source.method.isComparator = true
  · have hfault : s.world.faulty c.machine .handle = true := by
      simpa [Operation.reaches, hdirect, hm] using h
    rw [if_pos hm, if_pos hm]
    refine ⟨.handleUnavailable (World.runtimeNumber c.machine), ?_, rfl⟩
    simp [requestHandle, Act.bind_eq, Act.change, Act.look, World.faulty_count, hfault, Act.fail]
  · rw [if_neg hm, if_neg hm]
    exact ⟨_, rfl, rfl⟩

theorem resolution_of_reaches (source : Source) (h : op.reaches c source.method s.world = true) :
    ∃ w, w.fabric = s.world.fabric ∧
      (op.resolution c source s.world).1 = (resolveTarget c source w).1 := by
  by_cases hdirect : op.isDirect = true
  · exact ⟨s.world, rfl, by rw [Operation.resolution, if_pos hdirect]⟩
  · obtain ⟨hm, hfault⟩ : source.method.isComparator = true ∧
        s.world.faulty c.machine .handle = false := by
      simpa [Operation.reaches, hdirect] using h
    refine ⟨s.world.count c.machine .countHandle, World.fabric_count .., ?_⟩
    rw [Operation.resolution, if_neg hdirect, resolve, if_pos hm]
    simp [requestHandle, Act.bind_eq, Act.change, Act.look, World.faulty_count, hfault, Pure.pure]

/-! ### Confinement -/

/-- The resolution through the context `c`, numbered `e`, of a reference that was made through the
context numbered `e₀` for an object of a class: it succeeds only through the context that made the
reference, and then for the method of the object's class; another context refuses the reference. -/
structure Confined (s : Session σ) (op : Operation σ) (e₀ e : Nat) (c : Context)
    (className : String) (m : Method) (outcome : Except Failure (Binding σ)) : Prop where
  own : ∀ b, outcome = .ok b → e = e₀ ∧ BoundTo b s.world c.machine className m
  accepted : ∀ body, e = e₀ → op.reaches c m s.world = true →
    s.world.body? c.machine className m = some body → ∃ b, outcome = .ok b
  foreign : e ≠ e₀ → op.reaches c m s.world = true →
    ∃ f, outcome = .error f ∧ f.stage? = some .globalRef
  early : op.reaches c m s.world = false → ∃ f, outcome = .error f ∧
    f.stage? = some (if m.isComparator then .runtimeHandle else .methodLookup)

/-- The contexts numbered `e₀` and `e` are the same-numbered ones of two runtimes. -/
def Mistaken (s : Session σ) (e₀ e : Nat) (c₀ c : Context) : Prop :=
  c₀.machine ≠ c.machine ∧ s.place c₀.machine e₀ = s.place c.machine e

section
variable {e₀ n : Nat} {c₀ : Context} {className : String} {r : LocalRef} {m : Method}

theorem BoundTo.of_fabric {b : Binding σ} {w w' : World σ} {id : Nat} (hw : w'.fabric = w.fabric)
    (h : BoundTo b w' id className m) : BoundTo b w id className m :=
  ⟨h.machine, h.method, h.variant, by rw [← World.body?_of_fabric hw, h.body]⟩

theorem Confined.of_not_reaches (h : op.reaches c m s.world = false) :
    Confined s op e₀ e c className m (op.resolution c (.ofObject r m) s.world).1 := by
  obtain ⟨f, hf, hstage⟩ := resolution_of_not_reaches (.ofObject r m) h
  refine ⟨fun b hb => ?_, fun _ _ hr => ?_, fun _ hr => ?_, fun _ => ⟨f, hf, hstage⟩⟩
  · rw [hf] at hb
    contradiction
  · rw [h] at hr
    contradiction
  · rw [h] at hr
    contradiction

theorem Confined.of_own (hreach : op.reaches c m s.world = true) (hframe : r.frame = c.frame)
    (hobj : (s.world.objects c.machine)[r.object]? = some className) :
    Confined s op e e c className m (op.resolution c (.ofObject r m) s.world).1 := by
  obtain ⟨w, hw, hres⟩ := resolution_of_reaches (.ofObject r m) hreach
  rw [← World.objects_of_fabric hw] at hobj
  have hlate : op.reaches c m s.world = false → ∃ f,
      (op.resolution c (.ofObject r m) s.world).1 = .error f ∧
        f.stage? = some (if m.isComparator then .runtimeHandle else .methodLookup) := by
    rw [hreach]
    nofun
  rcases resolveTarget_of_frame_eq hframe m w with ⟨name, b, ho, hb, hbound⟩ | ⟨f, hf, -, hbody⟩
  · obtain rfl : className = name := Option.some.inj (hobj.symm.trans ho)
    refine ⟨fun b' hb' => ⟨rfl, ?_⟩, fun _ _ _ _ => ⟨b, hres.trans hb⟩,
      fun h => absurd rfl h, hlate⟩
    rw [hres, hb] at hb'
    obtain rfl := Except.ok.inj hb'
    exact hbound.of_fabric hw
  · refine ⟨fun b hb => ?_, fun body _ _ hsome => ?_, fun h => absurd rfl h, hlate⟩
    · rw [hres, hf] at hb
      contradiction
    · rw [← World.body?_of_fabric hw, hbody className hobj] at hsome
      contradiction

theorem Confined.of_frame_ne (hreach : op.reaches c m s.world = true) (hframe : r.frame ≠ c.frame)
    (hne : e ≠ e₀) :
    Confined s op e₀ e c className m (op.resolution c (.ofObject r m) s.world).1 := by
  obtain ⟨w, -, hres⟩ := resolution_of_reaches (.ofObject r m) hreach
  rw [resolveTarget_of_frame_ne hframe] at hres
  refine ⟨fun b hb => ?_, fun _ h => absurd h hne, fun _ _ => ⟨_, hres, rfl⟩, fun h => ?_⟩
  · rw [hres] at hb
    contradiction
  · rw [hreach] at h
    contradiction

/-- A reference is confined to the context that made it, unless it is used through the same-numbered
context of another runtime. -/
theorem confined_iff (hs : s.Framed) (hc : s.contexts[e]? = some c)
    (hc₀ : s.contexts[e₀]? = some c₀) (hframe : r.frame = c₀.frame)
    (hobj : (s.world.objects c₀.machine)[r.object]? = some className) :
    Confined s op e₀ e c className m (op.resolution c (.ofObject r m) s.world).1 ↔
      ¬ (op.reaches c m s.world = true ∧ Mistaken s e₀ e c₀ c) := by
  have hplace : r.frame = c.frame ↔ s.place c₀.machine e₀ = s.place c.machine e := by
    rw [hframe, hs.frame e c hc, hs.frame e₀ c₀ hc₀]
  constructor
  · rintro hconf ⟨hreach, hmachine, hsame⟩
    have hne : e ≠ e₀ := by
      rintro rfl
      rw [hc] at hc₀
      exact hmachine (congrArg Context.machine (Option.some.inj hc₀)).symm
    obtain ⟨f, hf, hstage⟩ := hconf.foreign hne hreach
    obtain ⟨w, -, hres⟩ := resolution_of_reaches (.ofObject r m) hreach
    rw [hres] at hf
    rcases resolveTarget_of_frame_eq (hplace.2 hsame) m w with ⟨_, b, -, hb, -⟩ | ⟨f', hf', hno, -⟩
    · rw [hb] at hf
      contradiction
    · rw [hf'] at hf
      obtain rfl := Except.error.inj hf
      exact hno hstage
  · intro hno
    cases hreach : op.reaches c m s.world with
    | false => exact .of_not_reaches hreach
    | true =>
      by_cases hsame : r.frame = c.frame
      · have hmachine : c₀.machine = c.machine := by
          by_cases hm : c₀.machine = c.machine
          · exact hm
          · exact absurd ⟨hreach, hm, hplace.1 hsame⟩ hno
        obtain rfl := Session.place_inj hc hc₀ hmachine (hplace.1 hsame)
        obtain rfl := Option.some.inj (hc.symm.trans hc₀)
        exact .of_own hreach hsame hobj
      · refine .of_frame_ne hreach hsame ?_
        rintro rfl
        obtain rfl := Option.some.inj (hc.symm.trans hc₀)
        exact hsame hframe

end

end

/-- In every run, an operation that resolves a reference does as the resolution goes, and the
resolution is confined to the context that made the reference but for one case: it comes to look at
the reference through the same-numbered context of another runtime. -/
theorem reference_confined (memory : σ) (ops : List (Operation σ)) {op : Operation σ} {e n : Nat}
    {m : Method} {c : Context} {r : LocalRef}
    (h : Resolves ((Session.start memory).run ops) e (.ofObject n m) op)
    (hc : ((Session.start memory).run ops).contexts[e]? = some c)
    (hr : ((Session.start memory).run ops).references[n]? = some r) :
    let s := (Session.start memory).run ops
    let outcome := (op.resolution c (.ofObject r m) s.world).1
    Delivers s op outcome ∧
      (∃ e₀ className, Session.Made (Session.start memory) ops n e₀ className) ∧
      ∀ e₀ className, Session.Made (Session.start memory) ops n e₀ className →
        ∃ c₀, s.contexts[e₀]? = some c₀ ∧
          (Confined s op e₀ e c className m outcome ↔
            ¬ (op.reaches c m s.world = true ∧ Mistaken s e₀ e c₀ c)) := by
  have hsource : ((Session.start memory).run ops).source? (.ofObject n m) =
      some (.ofObject r m) := by
    simp [Session.source?, hr]
  refine ⟨h.delivers hc hsource, ?_, fun e₀ className hmade => ?_⟩
  · exact Session.exists_made memory ops (Array.getElem?_eq_some_iff.1 hr).1
  · obtain ⟨c₀, r₀, hc₀, hr₀, hframe, hobj⟩ := hmade.given
    obtain rfl := Option.some.inj (hr.symm.trans hr₀)
    exact ⟨c₀, hc₀, confined_iff (Session.framed_run memory ops) hc hc₀ hframe hobj⟩

def oneRuntime : List (Operation Unit) :=
  [.create Class.benchmarks, .enter .main 0, .enter .main 0, .newObject 0 ascendingClass]

theorem reference_confined_one_runtime :
    let s := (Session.start ()).run oneRuntime
    let op : Operation Unit := .resolve 1 (.ofObject 0 .instanceComparator)
    Resolves s 1 (.ofObject 0 .instanceComparator) op ∧ s.contexts[1]? = some ⟨0, 2⟩ ∧
      s.references[0]? = some ⟨0, 1⟩ ∧
      Confined s op 0 1 ⟨0, 2⟩ ascendingClass .instanceComparator
        (op.resolution ⟨0, 2⟩ (.ofObject ⟨0, 1⟩ .instanceComparator) s.world).1 := by
  have hres : Resolves ((Session.start ()).run oneRuntime) 1 (.ofObject 0 .instanceComparator)
      (.resolve 1 (.ofObject 0 .instanceComparator)) := .resolve
  refine ⟨hres, rfl, rfl, ?_⟩
  obtain ⟨-, -, hall⟩ := reference_confined () oneRuntime hres (c := ⟨0, 2⟩) rfl (r := ⟨0, 1⟩) rfl
  obtain ⟨c₀, hc₀, hiff⟩ := hall 0 ascendingClass
    ⟨oneRuntime.dropLast, [], ⟨0, 1⟩, rfl, rfl⟩
  obtain rfl : ⟨0, 1⟩ = c₀ := Option.some.inj hc₀
  exact hiff.2 fun ⟨_, hm, _⟩ => hm rfl

def twoRuntimes : List (Operation Unit) :=
  [.create Class.benchmarks, .create Class.benchmarks, .enter .main 0, .enter .main 1,
    .newObject 0 ascendingClass, .newObject 1 ascendingClass]

/-- The reference of one runtime's first context is taken by the first context of the other. -/
theorem reference_taken_by_other_runtime :
    let s := (Session.start ()).run twoRuntimes
    let op : Operation Unit := .lookup 1 (.ofObject 0 .instanceComparator)
    Session.Made (Session.start ()) twoRuntimes 0 0 ascendingClass ∧
      Resolves s 1 (.ofObject 0 .instanceComparator) op ∧ s.contexts[1]? = some ⟨1, 1⟩ ∧
      s.references[0]? = some ⟨0, 1⟩ ∧ (s.perform op).1 = .found true ∧
      ¬ Confined s op 0 1 ⟨1, 1⟩ ascendingClass .instanceComparator
        (op.resolution ⟨1, 1⟩ (.ofObject ⟨0, 1⟩ .instanceComparator) s.world).1 := by
  refine ⟨⟨twoRuntimes.take 4, [.newObject 1 ascendingClass], ⟨0, 1⟩, rfl, rfl⟩, .lookup, rfl, rfl,
    rfl, fun h => ?_⟩
  obtain ⟨h10, -⟩ := h.own _ rfl
  exact Nat.one_ne_zero h10

end CallBridge.Bridge
