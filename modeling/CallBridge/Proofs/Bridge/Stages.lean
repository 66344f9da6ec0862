import CallBridge.Proofs.Bridge.Classes

/-!
# The stages of a resolution

A resolution ends at the first of its checks that fails, and what it counted tells how far it came.
`Ends` has a rule for each of these ends: what it takes to get there, at which stage the failure
is reported, and what was asked for on the way. Every resolution ends by one of the rules
(`exists_ends`), and as its rule says (`Ends.resolved`). No rule looks at the faults of
attaching and invoking.
-/

namespace CallBridge.Managed
open Bridge

variable {σ : Type}

/-- How often a resolution asked for the handle, looked for a method and made a reference. -/
structure Steps where
  handles : Nat
  lookups : Nat
  references : Nat

/-- The counts of a runtime after these steps. -/
def Counters.after (c : Counters) (n : Steps) : Counters :=
  { c with
    handleRequests := c.handleRequests + n.handles
    methodLookups := c.methodLookups + n.lookups
    globalRefsCreated := c.globalRefsCreated + n.references
    liveGlobalRefs := c.liveGlobalRefs + n.references }

namespace World
variable {w : World σ} {id : Nat} {name : String} {k : Class σ}

/-- A class is the first of its name in a runtime. -/
def IsFirst (w : World σ) (id : Nat) (k : Class σ) : Prop :=
  ∃ front back, w.classes id = some (front ++ k :: back) ∧ ∀ k' ∈ front, k'.name ≠ k.name

/-- A runtime has no class of this name. -/
def Lacks (w : World σ) (id : Nat) (name : String) : Prop :=
  ∀ classes, w.classes id = some classes → ∀ k ∈ classes, k.name ≠ name

theorem class?_eq (w : World σ) (id : Nat) (name : String) :
    w.class? id name = (w.classes id).bind (·.find? (·.name = name)) := by
  rw [class?, classes]
  cases w.machines[id]? <;> rfl

theorem class?_eq_none_iff : w.class? id name = none ↔ w.Lacks id name := by
  rw [class?_eq, Option.bind_eq_none_iff]
  simp [Lacks]

theorem class?_eq_some_iff : w.class? id name = some k ↔ w.IsFirst id k ∧ k.name = name := by
  rw [class?_eq, Option.bind_eq_some_iff]
  simp only [List.find?_eq_some_iff_append, decide_eq_true_eq]
  constructor
  · rintro ⟨classes, hclasses, rfl, front, back, rfl, hfront⟩
    exact ⟨⟨front, back, hclasses, by simpa using hfront⟩, rfl⟩
  · rintro ⟨⟨front, back, hclasses, hfront⟩, rfl⟩
    exact ⟨_, hclasses, rfl, front, back, rfl, by simpa using hfront⟩

theorem count_nothing (w : World σ) (id : Nat) : w.count id (·.after ⟨0, 0, 0⟩) = w :=
  w.countQuestions_zero id

theorem count_lookup (w : World σ) (id : Nat) :
    (w.count id .countHandle).count id .countLookup = w.count id (·.after ⟨1, 1, 0⟩) := by
  simp only [count, update_update]
  rfl

theorem count_reference (w : World σ) (id : Nat) :
    (w.count id (·.after ⟨1, 1, 0⟩)).count id .countPromotion = w.count id (·.after ⟨1, 1, 1⟩) := by
  simp only [count, update_update]
  rfl

end World
end CallBridge.Managed

namespace CallBridge.Bridge
open Managed

variable {σ : Type} {w : World σ} {c : Context} {s : Source}

/-- A method is one that a source asks for. -/
def Source.Fits (s : Source) (e : MethodEntry σ) : Prop :=
  e.method = s.method ∧ e.isStatic = s.isStatic

/-- A source is a local reference of another frame. -/
def Source.IsForeign (s : Source) (c : Context) : Prop :=
  ∃ r m, s = .ofObject r m ∧ r.frame ≠ c.frame

/-- A source is a local reference of this frame, but to no object. -/
def Source.Dangles (s : Source) (c : Context) (w : World σ) : Prop :=
  ∃ r m, s = .ofObject r m ∧ r.frame = c.frame ∧ (w.objects c.machine)[r.object]? = none

/-- The signature is a comparator's and the runtime gives its handle. -/
def Begins (w : World σ) (c : Context) (s : Source) : Prop :=
  s.method.signature = comparatorSignature ∧ w.faulty c.machine .handle = false

/-- Where a resolution ends and what it asked for on the way. -/
inductive Ends (w : World σ) (c : Context) (s : Source) :
    Except Stage (Binding σ) → Steps → Prop
  | signature (h : s.method.signature ≠ comparatorSignature) :
    Ends w c s (.error .methodLookup) ⟨0, 0, 0⟩
  | handle (shape : s.method.signature = comparatorSignature)
      (h : w.faulty c.machine .handle = true) :
    Ends w c s (.error .runtimeHandle) ⟨1, 0, 0⟩
  | frame (begins : Begins w c s) (h : s.IsForeign c) :
    Ends w c s (.error .globalRef) ⟨1, 0, 0⟩
  | object (begins : Begins w c s) (h : s.Dangles c w) :
    Ends w c s (.error .classLookup) ⟨1, 0, 0⟩
  | className {name} (begins : Begins w c s) (names : w.className? c s = some name)
      (h : w.Lacks c.machine name) :
    Ends w c s (.error .classLookup) ⟨1, 0, 0⟩
  | method {k} (begins : Begins w c s) (names : w.className? c s = some k.name)
      (first : w.IsFirst c.machine k) (h : ∀ e ∈ k.methods, ¬ s.Fits e) :
    Ends w c s (.error .methodLookup) ⟨1, 1, 0⟩
  | found {k front e back} (begins : Begins w c s) (names : w.className? c s = some k.name)
      (first : w.IsFirst c.machine k) (methods : k.methods = front ++ e :: back)
      (earlier : ∀ e' ∈ front, ¬ s.Fits e') (h : s.Fits e) :
    Ends w c s (.ok ⟨c.machine, w.referencesCreated c.machine, s.variant, s.method, e.body⟩)
      ⟨1, 1, 1⟩

/-- A resolution ended so: with this binding or a failure at this stage, and with nothing changed
but what it counted. -/
structure Resolved (w : World σ) (c : Context) (outcome : Except Stage (Binding σ)) (n : Steps)
    (done : Except Failure (Binding σ) × World σ) : Prop where
  bound : ∀ b, outcome = .ok b → done.1 = .ok b
  failed : ∀ stage, outcome = .error stage → ∃ f, done.1 = .error f ∧ f.stage? = some stage
  world : done.2 = w.count c.machine (·.after n)

theorem Resolved.of_error {stage : Stage} {n : Steps} {f : Failure} {w' : World σ}
    (hf : f.stage? = some stage) (hw : w' = w.count c.machine (·.after n)) :
    Resolved w c (.error stage) n (.error f, w') where
  bound := nofun
  failed := by
    rintro _ ⟨⟩
    exact ⟨f, rfl, hf⟩
  world := hw

theorem find?_eq_none_iff {k : Class σ} :
    k.find? s.method s.isStatic = none ↔ ∀ e ∈ k.methods, ¬ s.Fits e := by
  simp [Class.find?, Source.Fits]

theorem find?_eq_some_iff {k : Class σ} {e : MethodEntry σ} :
    k.find? s.method s.isStatic = some e ↔
      s.Fits e ∧ ∃ front back, k.methods = front ++ e :: back ∧ ∀ e' ∈ front, ¬ s.Fits e' := by
  simp [Class.find?, Source.Fits, List.find?_eq_some_iff_append, imp_iff_not_or]

/-! ### The steps -/

theorem findMethod_of_lacks {id : Nat} {name : String} (h : w.Lacks id name) (m : Method)
    (isStatic : Bool) : findMethod id name m isStatic w = (.error (.classMissing name), w) := by
  rw [← World.class?_eq_none_iff, World.class?] at h
  rw [findMethod, Act.bind_eq, findClass, h]

theorem findMethod_of_class {id : Nat} {k : Class σ} (h : w.IsFirst id k) (m : Method)
    (isStatic : Bool) : findMethod id k.name m isStatic w =
      (match k.find? m isStatic with
        | some e => .ok e.body
        | none => .error (.methodMissing isStatic m.name m.signature k.name),
      w.count id .countLookup) := by
  have hclass := World.class?_eq_some_iff.2 ⟨h, rfl⟩
  rw [World.class?] at hclass
  rw [findMethod, Act.bind_eq, findClass, hclass]
  dsimp only
  rw [Act.bind_eq]
  cases k.find? m isStatic <;> rfl

theorem lookup_of_className {name : String} (h : w.className? c s = some name) :
    lookup c s w = findMethod c.machine name s.method s.isStatic w := by
  cases s with
  | ofClass name' m =>
    cases h
    rfl
  | ofObject r m =>
    rw [World.className?] at h
    split at h
    next hframe =>
      rw [lookup, Act.bind_eq, classOf_of_frame_eq hframe, h]
      rfl
    · cases h

theorem resolve_of_signature (h : s.method.signature ≠ comparatorSignature) (w : World σ) :
    resolve c s w = (.error (.notComparator s.method.name s.method.signature), w) := by
  have hshape : ¬ s.method.isComparator = true := fun hshape => h (of_decide_eq_true hshape)
  rw [resolve, if_neg hshape]
  rfl

theorem resolve_eq (shape : s.method.signature = comparatorSignature) (w : World σ) :
    resolve c s w = if w.faulty c.machine .handle then
      (.error (.handleUnavailable (World.runtimeNumber c.machine)), w.count c.machine .countHandle)
    else resolveTarget c s (w.count c.machine .countHandle) := by
  have hshape : s.method.isComparator = true := decide_eq_true shape
  rw [resolve, if_pos hshape, Act.bind_eq, requestHandle, Act.bind_eq]
  simp only [Act.change]
  rw [Act.bind_eq]
  simp only [Act.look, World.faulty_count]
  cases w.faulty c.machine .handle <;> rfl

theorem Begins.resolve_eq (h : Begins w c s) :
    resolve c s w = resolveTarget c s (w.count c.machine .countHandle) := by
  rw [Bridge.resolve_eq h.1, h.2]
  rfl

theorem resolveTarget_of_error {f : Failure} {w' : World σ} (h : lookup c s w = (.error f, w')) :
    resolveTarget c s w = (.error f, w') := by
  rw [resolveTarget, Act.bind_eq, h]

theorem resolveTarget_of_ok {body : Body σ} {w' : World σ} (h : lookup c s w = (.ok body, w')) :
    resolveTarget c s w =
      (.ok ⟨c.machine, w'.referencesCreated c.machine, s.variant, s.method, body⟩,
        w'.count c.machine .countPromotion) := by
  rw [resolveTarget, Act.bind_eq, h]
  rfl

theorem lookup_of_isForeign (h : s.IsForeign c) (w : World σ) :
    ∃ f : Failure, f.stage? = some .globalRef ∧ lookup c s w = (.error f, w) := by
  obtain ⟨r, m, rfl, hframe⟩ := h
  refine ⟨.foreignFrame r.frame c.frame, rfl, ?_⟩
  rw [lookup, Act.bind_eq, classOf, if_pos hframe]

theorem lookup_of_dangles (h : s.Dangles c w) : lookup c s w = (.error .dangling, w) := by
  obtain ⟨r, m, rfl, hframe, hobject⟩ := h
  rw [lookup, Act.bind_eq, classOf_of_frame_eq hframe, hobject]

/-! ### Where they end -/

theorem Ends.resolved {outcome : Except Stage (Binding σ)} {n : Steps} (h : Ends w c s outcome n) :
    Resolved w c outcome n (resolve c s w) := by
  -- the count of the handle changes no class and no object, so a rule's facts hold behind it too
  have hfabric : (w.count c.machine .countHandle).fabric = w.fabric := World.fabric_count ..
  have hclasses := World.classes_of_fabric hfabric
  cases h with
  | signature h =>
    rw [resolve_of_signature h]
    exact .of_error rfl (w.count_nothing _).symm
  | handle shape h =>
    rw [resolve_eq shape, h]
    exact .of_error rfl rfl
  | frame begins h =>
    obtain ⟨f, hf, hlookup⟩ := lookup_of_isForeign h (w.count c.machine .countHandle)
    rw [begins.resolve_eq, resolveTarget_of_error hlookup]
    exact .of_error hf rfl
  | object begins h =>
    have hdangles : s.Dangles c (w.count c.machine .countHandle) := by
      rwa [Source.Dangles, World.objects_of_fabric hfabric]
    rw [begins.resolve_eq, resolveTarget_of_error (lookup_of_dangles hdangles)]
    exact .of_error rfl rfl
  | @className name begins names h =>
    have hlacks : (w.count c.machine .countHandle).Lacks c.machine name := by
      rwa [World.Lacks, hclasses]
    rw [← World.className?_of_fabric hfabric] at names
    rw [begins.resolve_eq, resolveTarget_of_error
      ((lookup_of_className names).trans (findMethod_of_lacks hlacks _ _))]
    exact .of_error rfl rfl
  | @method k begins names first h =>
    have hfirst : (w.count c.machine .countHandle).IsFirst c.machine k := by
      rwa [World.IsFirst, hclasses]
    have hmethod := findMethod_of_class hfirst s.method s.isStatic
    rw [find?_eq_none_iff.2 h] at hmethod
    rw [← World.className?_of_fabric hfabric] at names
    rw [begins.resolve_eq, resolveTarget_of_error ((lookup_of_className names).trans hmethod)]
    exact .of_error rfl (w.count_lookup _)
  | @found k front e back begins names first methods earlier h =>
    have hfirst : (w.count c.machine .countHandle).IsFirst c.machine k := by
      rwa [World.IsFirst, hclasses]
    have hmethod := findMethod_of_class hfirst s.method s.isStatic
    have hcreated := w.referencesCreated_count c.machine (f := (·.after ⟨1, 1, 0⟩)) fun _ => rfl
    rw [find?_eq_some_iff.2 ⟨h, front, back, methods, earlier⟩] at hmethod
    rw [← World.className?_of_fabric hfabric] at names
    rw [begins.resolve_eq, resolveTarget_of_ok ((lookup_of_className names).trans hmethod),
      World.count_lookup, hcreated]
    exact ⟨by rintro _ ⟨⟩; rfl, nofun, w.count_reference _⟩

theorem className?_cases (c : Context) (s : Source) (w : World σ) :
    s.IsForeign c ∨ s.Dangles c w ∨ ∃ name, w.className? c s = some name := by
  cases s with
  | ofClass name m => exact .inr (.inr ⟨name, rfl⟩)
  | ofObject r m =>
    by_cases hframe : r.frame = c.frame
    · rw [World.className?, if_pos hframe]
      cases hobject : (w.objects c.machine)[r.object]? with
      | none => exact .inr (.inl ⟨r, m, rfl, hframe, hobject⟩)
      | some name => exact .inr (.inr ⟨name, rfl⟩)
    · exact .inl ⟨r, m, rfl, hframe⟩

theorem exists_ends (w : World σ) (c : Context) (s : Source) :
    ∃ outcome n, Ends w c s outcome n := by
  by_cases hshape : s.method.signature = comparatorSignature
  case neg => exact ⟨_, _, .signature hshape⟩
  cases hfault : w.faulty c.machine .handle with
  | true => exact ⟨_, _, .handle hshape hfault⟩
  | false =>
    have begins : Begins w c s := ⟨hshape, hfault⟩
    rcases className?_cases c s w with h | h | ⟨name, names⟩
    · exact ⟨_, _, .frame begins h⟩
    · exact ⟨_, _, .object begins h⟩
    cases hclass : w.class? c.machine name with
    | none => exact ⟨_, _, .className begins names (World.class?_eq_none_iff.1 hclass)⟩
    | some k =>
      obtain ⟨hfirst, rfl⟩ := World.class?_eq_some_iff.1 hclass
      cases hmethod : k.find? s.method s.isStatic with
      | none => exact ⟨_, _, .method begins names hfirst (find?_eq_none_iff.1 hmethod)⟩
      | some e =>
        obtain ⟨h, front, back, methods, earlier⟩ := find?_eq_some_iff.1 hmethod
        exact ⟨_, _, .found begins names hfirst methods earlier h⟩

end CallBridge.Bridge

/-! ### Faults that no stage meets -/

namespace CallBridge.Managed

variable {σ α β : Type}

/-- An act does the same after a change of the world as before it. -/
def Act.Commutes (g : World σ → World σ) (x : Act σ α) : Prop := ∀ w, x (g w) = ((x w).1, g (x w).2)

namespace Act.Commutes
variable {g : World σ → World σ}

theorem pure (a : α) : Commutes g (Pure.pure a : Act σ α) := fun _ => rfl

theorem fail (e : Bridge.Failure) : Commutes g (Act.fail e : Act σ α) := fun _ => rfl

theorem look {f : World σ → α} (h : ∀ w, f (g w) = f w) : Commutes g (Act.look f) := fun w => by
  simp only [Act.look, h]

theorem change {f : World σ → World σ} (h : ∀ w, f (g w) = g (f w)) : Commutes g (Act.change f) :=
  fun w => by simp only [Act.change, h]

theorem bind {x : Act σ α} {k : α → Act σ β} (hx : Commutes g x) (hk : ∀ a, Commutes g (k a)) :
    Commutes g (x >>= k) := by
  intro w
  rw [Act.bind_eq, Act.bind_eq, hx w]
  obtain ⟨_ | a, w'⟩ := x w
  · rfl
  · exact hk a w'

end Act.Commutes

namespace World

/-- Switch faults of a runtime on and off. -/
def refault (w : World σ) (id : Nat) (f : Faults → Faults) : World σ :=
  w.update id fun m => { m with faults := f m.faults }

variable {id : Nat} {f : Faults → Faults}

theorem bind_refault (w : World σ) (id' : Nat) {g : Machine σ → Option α}
    (hg : ∀ m, g { m with faults := f m.faults } = g m) :
    (w.refault id f).machines[id']?.bind g = w.machines[id']?.bind g :=
  w.read_update id (g := (·.bind g)) hg id'

theorem map_refault (w : World σ) (id' : Nat) {g : Machine σ → α}
    (hg : ∀ m, g { m with faults := f m.faults } = g m) :
    (w.refault id f).machines[id']?.map g = w.machines[id']?.map g :=
  w.read_update id (g := (·.map g)) (fun m => congrArg some (hg m)) id'

theorem referencesCreated_refault (w : World σ) (id' : Nat) :
    (w.refault id f).referencesCreated id' = w.referencesCreated id' := by
  rw [referencesCreated, counters, map_refault w id' fun _ => rfl]
  rfl

theorem faulty_refault (w : World σ) (id' : Nat) {fault : Fault}
    (h : ∀ fs, (f fs).has fault = fs.has fault) :
    (w.refault id f).faulty id' fault = w.faulty id' fault := by
  unfold faulty
  refine w.read_update id (g := (·.any (·.faults.has fault))) (fun m => ?_) id'
  exact h m.faults

theorem count_refault (w : World σ) (id' : Nat) (g : Counters → Counters) :
    (w.refault id f).count id' g = (w.count id' g).refault id f := by
  simp only [refault, count, update, World.mk.injEq, and_self, and_true]
  apply Array.ext
  · simp
  · intro i h₁ h₂
    simp only [Array.getElem_modify]
    split <;> split <;> rfl

end World

section
variable {id : Nat} {f : Faults → Faults}

theorem findClass_commutes (id' : Nat) (name : String) :
    (findClass (σ := σ) id' name).Commutes (·.refault id f) := by
  intro w
  unfold findClass
  rw [w.bind_refault id' fun _ => rfl]
  split <;> rfl

theorem findMethod_commutes (id' : Nat) (name : String) (m : Method) (isStatic : Bool) :
    (findMethod (σ := σ) id' name m isStatic).Commutes (·.refault id f) := by
  refine (findClass_commutes id' name).bind fun k => ?_
  refine (Act.Commutes.change fun w => w.count_refault id' _).bind fun _ => ?_
  split
  · exact .pure _
  · exact .fail _

theorem classOf_commutes (c : Context) (r : LocalRef) :
    (classOf (σ := σ) c r).Commutes (·.refault id f) := by
  intro w
  unfold classOf
  rw [w.bind_refault c.machine fun _ => rfl]
  split
  · rfl
  · split <;> rfl

theorem requestHandle_commutes (c : Context) (h : ∀ fs, (f fs).handle = fs.handle) :
    (requestHandle (σ := σ) c).Commutes (·.refault id f) := by
  have hhandle : ∀ fs, (f fs).has .handle = fs.has .handle := h
  refine (Act.Commutes.change fun w => w.count_refault _ _).bind fun _ => ?_
  refine (Act.Commutes.look fun w => w.faulty_refault _ hhandle).bind fun faulty => ?_
  split
  · exact .fail _
  · exact .pure _

end
end CallBridge.Managed

namespace CallBridge.Bridge
open Managed

variable {σ : Type} {id : Nat} {f : Faults → Faults}

theorem lookup_commutes (c : Context) (s : Source) :
    (lookup (σ := σ) c s).Commutes (·.refault id f) := by
  cases s with
  | ofClass name m => exact findMethod_commutes _ _ _ _
  | ofObject r m =>
    exact (classOf_commutes c r).bind fun name => findMethod_commutes _ _ _ _

theorem resolveTarget_commutes (c : Context) (s : Source) :
    (resolveTarget (σ := σ) c s).Commutes (·.refault id f) := by
  refine (lookup_commutes c s).bind fun body => ?_
  refine (Act.Commutes.look fun w => w.referencesCreated_refault _).bind fun reference => ?_
  exact (Act.Commutes.change fun w => w.count_refault _ _).bind fun _ => .pure _

theorem resolve_commutes (c : Context) (s : Source) (h : ∀ fs, (f fs).handle = fs.handle) :
    (resolve (σ := σ) c s).Commutes (·.refault id f) := by
  unfold resolve
  split
  · exact (requestHandle_commutes c h).bind fun _ => resolveTarget_commutes c s
  · exact .fail _

theorem Ends.binding {w : World σ} {c : Context} {s : Source} {b : Binding σ} {n : Steps}
    (h : Ends w c s (.ok b) n) : b.machine = c.machine ∧ b.variant = s.variant ∧
      b.method = s.method ∧ (b.holdsObject = true ↔ ∃ r m, s = .ofObject r m) := by
  cases h
  refine ⟨rfl, rfl, rfl, ?_⟩
  cases s <;> simp [Binding.holdsObject, Source.variant]

namespace Session
variable {s : Session σ} {e : Nat} {c : Context}

theorem Framed.machine_lt (h : s.Framed) (hc : s.contexts[e]? = some c) :
    c.machine < s.world.machines.size := by
  have hframes := h.frames c.machine
  have hpos : 0 < s.contexts.toList.countP (·.machine = c.machine) :=
    List.countP_pos_iff.2 ⟨c, Array.mem_toList_iff.2 (Array.mem_of_getElem? hc), by simp⟩
  by_contra hout
  rw [World.frames, Array.getElem?_eq_none (Nat.not_lt.1 hout)] at hframes
  exact absurd hframes (Nat.ne_of_lt hpos)

/-- In every run, a resolution through a context ends as the rules say: what it comes to, what it
counted in the context's runtime, and that no fault but that of the handle has a say in it. -/
theorem resolution_stages (memory : σ) (ops : List (Operation σ))
    (hc : ((start memory).run ops).contexts[e]? = some c) (source : Source) :
    let w := ((start memory).run ops).world
    let done := resolve c source w
    (∃ outcome n, Ends w c source outcome n) ∧
      (∀ outcome n, Ends w c source outcome n → Resolved w c outcome n done ∧
        done.2.counters c.machine = (w.counters c.machine).after n) ∧
      (∀ b, done.1 = .ok b → b.machine = c.machine ∧ b.variant = source.variant ∧
        b.method = source.method ∧ (b.holdsObject = true ↔ ∃ r m, source = .ofObject r m)) ∧
      (∀ id, (done.2.counters id).attachChecks = (w.counters id).attachChecks ∧
        (done.2.counters id).attachments = (w.counters id).attachments ∧
        (done.2.counters id).invocations = (w.counters id).invocations) ∧
      ∀ id f, (∀ fs : Faults, (f fs).handle = fs.handle) →
        resolve c source (w.refault id f) = (done.1, done.2.refault id f) := by
  intro w done
  have hlt : c.machine < w.machines.size := (framed_run memory ops).machine_lt hc
  obtain ⟨outcome, n, hends⟩ := exists_ends w c source
  have hresolved : Resolved w c outcome n done := hends.resolved
  refine ⟨⟨outcome, n, hends⟩, fun outcome n h => ⟨h.resolved, ?_⟩, fun b hb => ?_, fun id => ?_,
    fun id f hf => resolve_commutes c source hf w⟩
  · rw [h.resolved.world, World.counters_count, if_pos ⟨rfl, hlt⟩]
  · cases outcome with
    | error stage =>
      obtain ⟨f, hf, -⟩ := hresolved.failed stage rfl
      cases hf.symm.trans hb
    | ok b' =>
      obtain rfl : b' = b := Except.ok.inj ((hresolved.bound b' rfl).symm.trans hb)
      exact hends.binding
  · rw [hresolved.world, World.counters_count]
    split
    · exact ⟨rfl, rfl, rfl⟩
    · exact ⟨rfl, rfl, rfl⟩

/-- A runtime that has two classes of one name, the first without methods, and refuses to attach. -/
def shadowed : List (Operation Unit) :=
  [.create [⟨ascendingClass, []⟩, .ascending ascendingClass], .enter .main 0,
    .newObject 0 ascendingClass, .inject 0 .attach]

theorem resolution_stages_shadowed :
    let w := ((start ()).run shadowed).world
    let done := resolve ⟨0, 1⟩ (.comparator ⟨0, 1⟩) w
    ((start ()).run shadowed).contexts[0]? = some ⟨0, 1⟩ ∧
      (∃ f, done.1 = .error f ∧ f.stage? = some .methodLookup) ∧
      done.2.counters 0 = (w.counters 0).after ⟨1, 1, 0⟩ := by
  intro w done
  have hc : ((start ()).run shadowed).contexts[0]? = some ⟨0, 1⟩ := rfl
  have hends : Ends w ⟨0, 1⟩ (.comparator ⟨0, 1⟩) (.error .methodLookup) ⟨1, 1, 0⟩ :=
    .method (k := ⟨ascendingClass, []⟩) ⟨rfl, rfl⟩ rfl ⟨[], [.ascending ascendingClass], rfl, nofun⟩
      nofun
  obtain ⟨-, hall, -⟩ := resolution_stages () shadowed hc (.comparator ⟨0, 1⟩)
  obtain ⟨hresolved, hcounted⟩ := hall _ _ hends
  exact ⟨hc, hresolved.failed _ rfl, hcounted⟩

end Session
end CallBridge.Bridge
