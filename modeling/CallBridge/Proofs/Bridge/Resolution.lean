import CallBridge.Proofs.Bridge.Globals
import CallBridge.Proofs.Bridge.LocalReference

/-!
# What a resolution comes to

A source names a class in a context, the class has a first method that fits, and this is all that
the success of a resolution depends on besides the signature and the runtime's handle
(`resolve_cases`). A resolution that fails, at whatever stage, has counted the handle it asked for
and the method it looked for, and has done nothing else.
-/

namespace CallBridge.Bridge
open Managed

/-- Whether a source asks for a static method. -/
def Source.isStatic (s : Source) : Bool := s.variant = .onClass

end CallBridge.Bridge

namespace CallBridge.Managed
open Bridge

variable {σ : Type}

/-- A resolution counted: the handle, the method and the reference. -/
def Counters.countResolution (c : Counters) : Counters :=
  c.countHandle.countLookup.countPromotion

namespace World
variable {w w' : World σ} {c : Context} {s : Source}

theorem count_resolution (w : World σ) (id : Nat) :
    ((w.count id .countHandle).count id .countLookup).count id .countPromotion =
      w.count id .countResolution := by
  simp only [count, update_update]
  rfl

theorem referencesCreated_count (w : World σ) (id : Nat) {f : Counters → Counters}
    (hf : ∀ n, (f n).globalRefsCreated = n.globalRefsCreated) :
    (w.count id f).referencesCreated id = w.referencesCreated id := by
  rw [referencesCreated, counters_count]
  split
  · exact hf _
  · rfl

/-- The class that a name stands for in a runtime. -/
def class? (w : World σ) (id : Nat) (name : String) : Option (Class σ) :=
  w.machines[id]?.bind (·.class? name)

/-- The name of the class that a source names in a context: its own, or that of the object under a
reference that is good there. -/
def className? (w : World σ) (c : Context) : Source → Option String
  | .ofClass name _ => some name
  | .ofObject r _ => if r.frame = c.frame then (w.objects c.machine)[r.object]? else none

/-- The first method of a class of this name that a source can stand for. -/
def entry? (w : World σ) (id : Nat) (name : String) (s : Source) : Option (MethodEntry σ) :=
  (w.class? id name).bind (·.find? s.method s.isStatic)

/-- The method that a source stands for in a context. -/
def found? (w : World σ) (c : Context) (s : Source) : Option (MethodEntry σ) :=
  (w.className? c s).bind fun name => w.entry? c.machine name s

theorem class?_of_fabric (h : w'.fabric = w.fabric) (id : Nat) (name : String) :
    w'.class? id name = w.class? id name :=
  read_of_fabric h id (g := (·.bind (·.class? name))) fun o => by cases o <;> rfl

theorem className?_of_fabric (h : w'.fabric = w.fabric) (c : Context) (s : Source) :
    w'.className? c s = w.className? c s := by
  cases s with
  | ofClass name m => rfl
  | ofObject r m => simp only [className?, objects_of_fabric h]

theorem found?_of_fabric (h : w'.fabric = w.fabric) (c : Context) (s : Source) :
    w'.found? c s = w.found? c s := by
  simp only [found?, entry?, className?_of_fabric h, class?_of_fabric h]

theorem lt_of_found? {entry : MethodEntry σ} (h : w.found? c s = some entry) :
    c.machine < w.machines.size := by
  obtain ⟨name, -, hentry⟩ := Option.bind_eq_some_iff.1 h
  obtain ⟨k, hk, -⟩ := Option.bind_eq_some_iff.1 hentry
  exact lt_of_class hk

end World
end CallBridge.Managed

namespace CallBridge.Bridge
open Managed

variable {σ : Type}

/-- The binding that a source leads to, through a context, when it stands for a method. -/
def Source.bindingTo (s : Source) (c : Context) (w : World σ) (entry : MethodEntry σ) : Binding σ :=
  ⟨c.machine, w.referencesCreated c.machine, s.variant, s.method, entry.body⟩

/-- What a resolution that failed leaves of a world: it may have counted the handle, and then the
method that it looked for. -/
inductive Tried (w : World σ) (id : Nat) : World σ → Prop
  | nothing : Tried w id w
  | handle : Tried w id (w.count id .countHandle)
  | method : Tried w id ((w.count id .countHandle).count id .countLookup)

/-! ### The steps of a resolution -/

theorem findMethod_entry (id : Nat) (name : String) (s : Source) (w : World σ) :
    (∃ entry, w.entry? id name s = some entry ∧
      findMethod id name s.method s.isStatic w = (.ok entry.body, w.count id .countLookup)) ∨
    ∃ e w', w.entry? id name s = none ∧ findMethod id name s.method s.isStatic w = (.error e, w') ∧
      e.stage?.isSome ∧ (w' = w ∨ w' = w.count id .countLookup) := by
  rw [findMethod, Act.bind_eq, findClass, World.entry?, World.class?]
  cases w.machines[id]?.bind (·.class? name) with
  | none => exact .inr ⟨_, _, rfl, rfl, rfl, .inl rfl⟩
  | some k =>
    rw [Option.bind_some]
    dsimp only
    rw [Act.bind_eq]
    cases k.find? s.method s.isStatic with
    | none => exact .inr ⟨_, _, rfl, rfl, rfl, .inr rfl⟩
    | some entry => exact .inl ⟨entry, rfl, rfl⟩

theorem lookup_found (c : Context) (s : Source) (w : World σ) :
    (∃ entry, w.found? c s = some entry ∧
      lookup c s w = (.ok entry.body, w.count c.machine .countLookup)) ∨
    ∃ e w', w.found? c s = none ∧ lookup c s w = (.error e, w') ∧ e.stage?.isSome ∧
      (w' = w ∨ w' = w.count c.machine .countLookup) := by
  cases s with
  | ofClass name m => exact findMethod_entry c.machine name (.ofClass name m) w
  | ofObject r m =>
    rw [lookup, Act.bind_eq, World.found?, World.className?]
    by_cases hframe : r.frame = c.frame
    · rw [classOf_of_frame_eq hframe, if_pos hframe]
      cases (w.objects c.machine)[r.object]? with
      | none => exact .inr ⟨_, _, rfl, rfl, rfl, .inl rfl⟩
      | some name => exact findMethod_entry c.machine name (.ofObject r m) w
    · have hclass : classOf c r w = (.error (.foreignFrame r.frame c.frame), w) := if_pos hframe
      rw [hclass, if_neg hframe]
      exact .inr ⟨_, _, rfl, rfl, rfl, .inl rfl⟩

theorem Source.bindingTo_count (s : Source) (c : Context) (w : World σ) {f : Counters → Counters}
    (hf : ∀ n, (f n).globalRefsCreated = n.globalRefsCreated) :
    s.bindingTo c (w.count c.machine f) = s.bindingTo c w := by
  funext entry
  rw [bindingTo, w.referencesCreated_count c.machine hf, bindingTo]

theorem resolveTarget_found (c : Context) (s : Source) (w : World σ) :
    (∃ entry, w.found? c s = some entry ∧ resolveTarget c s w =
      (.ok (s.bindingTo c w entry),
        (w.count c.machine .countLookup).count c.machine .countPromotion)) ∨
    ∃ e w', w.found? c s = none ∧ resolveTarget c s w = (.error e, w') ∧ e.stage?.isSome ∧
      (w' = w ∨ w' = w.count c.machine .countLookup) := by
  rw [resolveTarget, Act.bind_eq]
  rcases lookup_found c s w with ⟨entry, hfound, h⟩ | ⟨e, w', hfound, h, hstage, hw'⟩ <;> rw [h]
  · have hbinding := s.bindingTo_count c w (f := Counters.countLookup) fun _ => rfl
    rw [← hbinding]
    exact .inl ⟨entry, hfound, rfl⟩
  · exact .inr ⟨e, w', hfound, rfl, hstage, hw'⟩

/-- A resolution comes to the method that the source stands for, if the signature is that of a
comparator and the runtime gives its handle, and is counted; else it fails at one of the stages. -/
theorem resolve_cases (c : Context) (s : Source) (w : World σ) :
    (∃ entry, (s.method.isComparator ∧ w.faulty c.machine .handle = false) ∧
      w.found? c s = some entry ∧
      resolve c s w = (.ok (s.bindingTo c w entry), w.count c.machine .countResolution)) ∨
    ∃ e w', ((s.method.isComparator ∧ w.faulty c.machine .handle = false) → w.found? c s = none) ∧
      resolve c s w = (.error e, w') ∧ e.stage?.isSome ∧ Tried w c.machine w' := by
  rw [resolve]
  by_cases hm : s.method.isComparator = true
  · rw [if_pos hm, Act.bind_eq, requestHandle, Act.bind_eq]
    simp only [Act.change]
    rw [Act.bind_eq]
    simp only [Act.look, World.faulty_count]
    cases hfault : w.faulty c.machine .handle with
    | true =>
      exact .inr ⟨_, _, fun h => absurd h.2.symm Bool.false_ne_true, rfl, rfl, .handle⟩
    | false =>
      have hfabric : (w.count c.machine .countHandle).fabric = w.fabric := World.fabric_count ..
      have hbinding := s.bindingTo_count c w (f := Counters.countHandle) fun _ => rfl
      rw [← World.found?_of_fabric hfabric]
      rcases resolveTarget_found c s (w.count c.machine .countHandle) with
        ⟨entry, hfound, h⟩ | ⟨e, w', hfound, h, hstage, hw'⟩
      · rw [hbinding, World.count_resolution] at h
        exact .inl ⟨entry, ⟨hm, rfl⟩, hfound, h⟩
      · refine .inr ⟨e, w', fun _ => hfound, h, hstage, ?_⟩
        rcases hw' with rfl | rfl
        · exact .handle
        · exact .method
  · rw [if_neg hm]
    exact .inr ⟨_, _, fun h => absurd h.1 hm, rfl, rfl, .nothing⟩

end CallBridge.Bridge
