import CallBridge.Proofs.Bridge.Fabric

/-!
# What is counted of global references

A runtime counts the methods looked up in it, the global references made for them, and those not
released yet. Only resolving and releasing touch these counts; a question does not, nor does a
diagnostic. `Books` is what a stretch of work without a release does to them: every binding it comes
to is looked up, made and held once. `resolve_books` and `Registry.bind_books` say which bindings
these are.
-/

namespace CallBridge.Managed

/-- What a runtime counts of its global references. -/
structure Globals where
  lookups : Nat
  created : Nat
  live : Nat

def Counters.globals (c : Counters) : Globals :=
  ⟨c.methodLookups, c.globalRefsCreated, c.liveGlobalRefs⟩

namespace World
variable {σ : Type}

def globals (w : World σ) (id : Nat) : Globals := (w.counters id).globals

theorem counters_count (w : World σ) (machine : Nat) (f : Counters → Counters) (id : Nat) :
    (w.count machine f).counters id =
      if id = machine ∧ machine < w.machines.size then f (w.counters id) else w.counters id := by
  simp only [counters, count, update, Array.getElem?_modify]
  by_cases hid : machine = id
  · subst hid
    by_cases hlt : machine < w.machines.size
    · simp [Machine.count, hlt]
    · simp [hlt]
  · simp [hid, Ne.symm hid]

theorem globals_count_of_same (w : World σ) (machine : Nat) {f : Counters → Counters}
    (hf : ∀ c, (f c).globals = c.globals) : (w.count machine f).globals = w.globals := by
  funext id
  rw [globals, counters_count]
  split
  · exact hf _
  · rfl

end World

theorem ignoresAsking_globals {σ : Type} {id : Nat} :
    IgnoresAsking (World.globals (σ := σ)) id where
  check w := w.globals_count_of_same id fun _ => rfl
  attachment w _ := w.globals_count_of_same id fun _ => rfl
  invocation w := w.globals_count_of_same id fun _ => rfl
  memory _ _ := rfl

end CallBridge.Managed

namespace CallBridge.Bridge
open Managed

variable {σ : Type}

/-- How many of these bindings were resolved in a runtime. -/
def resolvedIn (id : Nat) (bs : List (Binding σ)) : Nat := bs.countP (·.machine = id)

@[simp] theorem resolvedIn_append (id : Nat) (bs bs' : List (Binding σ)) :
    resolvedIn id (bs ++ bs') = resolvedIn id bs + resolvedIn id bs' := List.countP_append

theorem resolvedIn_singleton (id : Nat) (b : Binding σ) :
    resolvedIn id [b] = if b.machine = id then 1 else 0 := by
  simp [resolvedIn, List.countP_singleton]

/-- Work between two worlds that releases nothing and comes to these bindings. -/
structure Books (w w' : World σ) (made : List (Binding σ)) : Prop where
  lookups : ∀ id, (w.globals id).lookups + resolvedIn id made ≤ (w'.globals id).lookups
  created : ∀ id, (w'.globals id).created = (w.globals id).created + resolvedIn id made
  live : ∀ id, (w'.globals id).live = (w.globals id).live + resolvedIn id made

section
variable {w w' w'' : World σ} {made : List (Binding σ)}

theorem Books.of_same (h : w'.globals = w.globals) : Books w w' [] := by
  refine ⟨fun id => ?_, fun id => ?_, fun id => ?_⟩ <;> rw [h] <;> simp [resolvedIn]

theorem Books.before (h : Books w' w'' made) (hw : w'.globals = w.globals) : Books w w'' made := by
  obtain ⟨hlookups, hcreated, hlive⟩ := h
  rw [hw] at hlookups hcreated hlive
  exact ⟨hlookups, hcreated, hlive⟩

theorem Books.after (h : Books w w' made) (hw : w''.globals = w'.globals) : Books w w'' made := by
  obtain ⟨hlookups, hcreated, hlive⟩ := h
  rw [← hw] at hlookups hcreated hlive
  exact ⟨hlookups, hcreated, hlive⟩

theorem Books.lookup (w : World σ) (machine : Nat) : Books w (w.count machine .countLookup) [] := by
  refine ⟨fun id => ?_, fun id => ?_, fun id => ?_⟩ <;>
    simp only [World.globals, World.counters_count, resolvedIn, List.countP_nil] <;> split <;>
    simp [Counters.globals, Counters.countLookup]

/-- A method looked up in a runtime, and the reference made for it. -/
theorem Books.promotion {b : Binding σ} (h : b.machine < w.machines.size) :
    Books w ((w.count b.machine .countLookup).count b.machine .countPromotion) [b] := by
  have hsize : b.machine < (w.count b.machine .countLookup).machines.size := by
    simpa [World.count, World.update] using h
  refine ⟨fun id => ?_, fun id => ?_, fun id => ?_⟩ <;>
    simp only [World.globals, World.counters_count, h, hsize, and_true, resolvedIn_singleton] <;>
    by_cases hid : id = b.machine <;>
    simp [hid, Ne.symm, Counters.globals, Counters.countLookup, Counters.countPromotion]

end

/-- A release takes one from the references held of its runtime. -/
theorem Binding.globals_release (b : Binding σ) (w : World σ) (id : Nat) :
    (b.release w).globals id =
      { w.globals id with live := (w.globals id).live - resolvedIn id [b] } := by
  simp only [Binding.release, World.globals, World.counters_count, resolvedIn_singleton]
  by_cases hid : id = b.machine
  · subst hid
    by_cases hsize : b.machine < w.machines.size
    · simp [hsize, Counters.globals, Counters.countRelease]
    · -- There is no such runtime, so nothing is counted and nothing held.
      simp [hsize, Counters.globals, World.counters]
  · simp [hid, Ne.symm hid]

/-! ### Resolving -/

theorem findMethod_cases (id : Nat) (className : String) (m : Method) (isStatic : Bool)
    (w : World σ) :
    (∃ e, findMethod id className m isStatic w = (.error e, w)) ∨
      id < w.machines.size ∧
        ∃ found, findMethod id className m isStatic w = (found, w.count id .countLookup) := by
  rw [findMethod, Act.bind_eq, findClass]
  cases hc : w.machines[id]?.bind (·.class? className) with
  | none => exact .inl ⟨_, rfl⟩
  | some c =>
    refine .inr ⟨World.lt_of_class hc, ?_⟩
    dsimp only
    rw [Act.bind_eq]
    cases c.find? m isStatic with
    | none => exact ⟨_, rfl⟩
    | some entry => exact ⟨_, rfl⟩

theorem lookup_cases (c : Context) (s : Source) (w : World σ) :
    (∃ e, lookup c s w = (.error e, w)) ∨
      c.machine < w.machines.size ∧
        ∃ found, lookup c s w = (found, w.count c.machine .countLookup) := by
  cases s with
  | ofClass className m => exact findMethod_cases ..
  | ofObject r m =>
    have hw := classOf_keeps id c r w
    rw [lookup, Act.bind_eq]
    rcases hname : classOf c r w with ⟨e | className, w'⟩ <;> rw [hname] at hw <;>
      obtain rfl : w' = w := hw
    · exact .inl ⟨e, rfl⟩
    · exact findMethod_cases ..

/-- The bindings that a resolution comes to: one, or none. -/
def outcomes (outcome : Except Failure (Binding σ)) : List (Binding σ) :=
  outcome.toOption.toList

theorem resolveTarget_books (c : Context) (s : Source) (w : World σ) :
    Books w (resolveTarget c s w).2 (outcomes (resolveTarget c s w).1) := by
  rw [resolveTarget, Act.bind_eq]
  rcases lookup_cases c s w with ⟨e, h⟩ | ⟨hsize, e | body, h⟩ <;> rw [h]
  · exact .of_same rfl
  · exact .lookup w c.machine
  · exact Books.promotion (b := ⟨c.machine, _, _, _, _⟩) hsize

theorem resolve_books (c : Context) (s : Source) (w : World σ) :
    Books w (resolve c s w).2 (outcomes (resolve c s w).1) := by
  unfold resolve
  split
  · have hw := requestHandle_keeps (f := World.globals (σ := σ)) c
      (fun w => w.globals_count_of_same _ fun _ => rfl) w
    rw [Act.bind_eq]
    rcases hres : requestHandle c w with ⟨e | u, w'⟩ <;> rw [hres] at hw
    · exact .of_same hw
    · exact (resolveTarget_books c s w').before hw
  · exact .of_same rfl

namespace Registry
variable (r : Registry σ)

/-- The bindings that a registry resolves anew when a binding is asked of it. -/
def resolved (c : Context) (s : Source) (w : World σ) : List (Binding σ) :=
  if r.isBound then [] else outcomes (resolve c s w).1

theorem bind_books (c : Context) (s : Source) (w : World σ) :
    Books w (r.bind c s w).2.2 (r.resolved c s w) ∧
      (r.bind c s w).2.1.binding.toList = r.binding.toList ++ r.resolved c s w := by
  obtain ⟨_ | b⟩ := r
  · have hbooks := resolve_books c s w
    have hresolved : resolved ⟨none⟩ c s w = outcomes (resolve c s w).1 := rfl
    rw [hresolved]
    unfold Registry.bind Registry.establish
    rcases hres : resolve c s w with ⟨e | b, w'⟩ <;> rw [hres] at hbooks
    · exact ⟨hbooks.after rfl, rfl⟩
    · exact ⟨hbooks.after rfl, rfl⟩
  · exact ⟨.of_same rfl, (List.append_nil _).symm⟩

end Registry

end CallBridge.Bridge
