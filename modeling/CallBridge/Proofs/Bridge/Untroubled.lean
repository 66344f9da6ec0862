import CallBridge.Bridge.Undisturbed
import CallBridge.Proofs.Bridge.Resolution

/-!
# Runtimes without trouble

A runtime without faults does what it is asked, and all that changes of it is what it counts.
`World.Runs` says so of a runtime and the thread the process began with; each act of the bridge is
an equation there. A sort through a registry that leads to the ascending order puts the buffer in
order, for the price of the questions and, if the registry was unbound, of one resolution
(`Registry.sort_of_leads`). A sort with a binding of its own always pays the resolution and gives
its reference back (`sortFresh_of_leads`).
-/

namespace CallBridge.Managed
open Bridge

variable {σ : Type}

/-! ### What a source leads to -/

namespace Machine

/-- The body of a method of a class. -/
def body? (m : Machine σ) (className : String) (method : Method) (isStatic : Bool) :
    Option (Body σ) :=
  (m.class? className).bind fun c => (c.find? method isStatic).map (·.body)

/-- The body that a source leads to in a frame. -/
def target? (m : Machine σ) (frame : Nat) : Source → Option (Body σ)
  | .ofClass className method => m.body? className method true
  | .ofObject r method =>
    if r.frame = frame then m.objects[r.object]?.bind fun name => m.body? name method false
    else none

@[simp] theorem target?_count (m : Machine σ) (f : Counters → Counters) (frame : Nat)
    (s : Source) : (m.count f).target? frame s = m.target? frame s := rfl

end Machine

/-! ### A runtime that runs -/

/-- The runtime is in this state, without a fault. -/
structure World.Runs (w : World σ) (id : Nat) (m : Machine σ) : Prop where
  machine : w.machines[id]? = some m
  faults : m.faults = {}

namespace World.Runs
variable {w : World σ} {id : Nat} {m : Machine σ}

theorem counters (h : w.Runs id m) : w.counters id = m.counters := by
  simp [World.counters, h.machine]

theorem not_faulty (h : w.Runs id m) (f : Fault) : w.faulty id f = false := by
  rw [World.faulty, h.machine]
  cases f <;> simp [h.faults, Faults.has]

theorem update (h : w.Runs id m) {f : Machine σ → Machine σ} (hf : (f m).faults = m.faults) :
    (w.update id f).Runs id (f m) := by
  refine ⟨?_, hf.trans h.faults⟩
  rw [World.update, Array.getElem?_modify, if_pos rfl, h.machine]
  rfl

theorem count (h : w.Runs id m) (f : Counters → Counters) : (w.count id f).Runs id (m.count f) :=
  h.update rfl

theorem notify (h : w.Runs id m) (severity : Diagnostic.Severity) (event : String)
    (fields : Json) : (w.notify severity event fields).Runs id m := ⟨h.machine, h.faults⟩

theorem create (w : World σ) (classes : List (Class σ)) :
    (w.create classes).Runs w.machines.size { classes } := by
  refine ⟨?_, rfl⟩
  simp [World.create]

theorem attach (h : w.Runs id m) (thread : Thread) :
    ∃ w', Managed.attach thread id w = (.ok (), w') ∧ w'.isAttached thread id ∧
      w'.memory = w.memory ∧
        w'.Runs id (m.count (if w.isAttached thread id then fun c => c else .countAttachment)) := by
  rw [Managed.attach, if_neg (by simp [h.not_faulty])]
  by_cases hattached : w.isAttached thread id
  · refine ⟨w, if_pos hattached, hattached, rfl, ?_⟩
    rw [if_pos hattached]
    exact h
  · refine ⟨{ w.count id .countAttachment with attached := w.attached ++ [(thread, id)] },
      if_neg hattached, ?_, rfl, ?_⟩
    · simp [isAttached]
    · rw [if_neg hattached]
      exact ⟨(h.count _).machine, h.faults⟩

/-- The thread is attached once it has entered, which is counted if it was not before. -/
theorem enter (h : w.Runs id m) (thread : Thread) :
    ∃ w', Managed.enter thread id w = (.ok ⟨id, m.frames + 1⟩, w') ∧ w'.isAttached thread id ∧
      w'.memory = w.memory ∧
        w'.Runs id { m.count (if w.isAttached thread id then fun c => c else .countAttachment) with
          frames := m.frames + 1 } := by
  obtain ⟨w₁, h₁, hattached, hmemory, hruns⟩ := h.attach thread
  have hentered := hruns.update (f := fun m => { m with frames := m.frames + 1 }) rfl
  refine ⟨w₁.update id fun m => { m with frames := m.frames + 1 }, ?_, hattached, hmemory,
    hentered⟩
  simp [Managed.enter, Act.bind_eq, h₁, Act.change, Act.look, hentered.machine, Machine.count]

/-- The new object is of its class, and nothing else changes: the older ones stay where they are. -/
theorem newObject (h : w.Runs id m) {className : String} {k : Class σ}
    (hk : m.class? className = some k) (frame : Nat) :
    ∃ r w' m', Managed.newObject ⟨id, frame⟩ className w = (.ok r, w') ∧ r.frame = frame ∧
      w'.Runs id m' ∧ w'.attached = w.attached ∧ m'.objects[r.object]? = some className ∧
        m'.classes = m.classes ∧ m'.counters = m.counters ∧
          ∀ (i : Nat) name, m.objects[i]? = some name → m'.objects[i]? = some name := by
  have hmade := h.update (f := fun m => { m with objects := m.objects ++ [className] }) rfl
  refine ⟨⟨m.objects.length, frame⟩, _, _, ?_, rfl, hmade, rfl, ?_, rfl, rfl, fun i name hi => ?_⟩
  · simp [Managed.newObject, Act.bind_eq, findClass, Act.look, Act.change, h.machine, hk]
    rfl
  · exact List.getElem?_concat_length
  · have hlt : i < m.objects.length := (List.getElem?_eq_some_iff.1 hi).1
    rwa [List.getElem?_append_left hlt]

theorem requestHandle (h : w.Runs id m) (frame : Nat) :
    Managed.requestHandle ⟨id, frame⟩ w = (.ok (), w.count id .countHandle) := by
  simp [Managed.requestHandle, Act.bind_eq, Act.change, Act.look, (h.count _).not_faulty]
  rfl

theorem findMethod (h : w.Runs id m) {className : String} {method : Method} {isStatic : Bool}
    {body : Body σ} (hb : m.body? className method isStatic = some body) :
    Managed.findMethod id className method isStatic w = (.ok body, w.count id .countLookup) := by
  obtain ⟨k, hk, hentry⟩ := Option.bind_eq_some_iff.1 hb
  obtain ⟨e, he, rfl⟩ := Option.map_eq_some_iff.1 hentry
  simp [Managed.findMethod, Act.bind_eq, findClass, Act.change, h.machine, hk, he]
  rfl

end World.Runs
end CallBridge.Managed

namespace CallBridge.Bridge
open Managed

variable {σ : Type}

/-- In a frame of a runtime, the source is a comparator with this body. -/
structure Source.Finds (s : Source) (m : Machine σ) (frame : Nat) (body : Body σ) : Prop where
  comparator : s.method.isComparator
  target : m.target? frame s = some body

/-- Whatever the registry is bound to has this body, in this runtime. -/
def Registry.Serves (r : Registry σ) (id : Nat) (body : Body σ) : Prop :=
  ∀ b, r.binding = some b → b.machine = id ∧ b.body = body

theorem Registry.serves_new (id : Nat) (body : Body σ) : ({} : Registry σ).Serves id body :=
  fun _ h => by cases h

section
variable {w : World σ} {id frame : Nat} {m : Machine σ} {s : Source} {body : Body σ}

theorem Source.Finds.count (h : s.Finds m frame body) (f : Counters → Counters) :
    s.Finds (m.count f) frame body := ⟨h.comparator, h.target⟩

theorem lookup_of_finds (h : w.Runs id m) (hs : s.Finds m frame body) :
    lookup ⟨id, frame⟩ s w = (.ok body, w.count id .countLookup) := by
  have htarget := hs.target
  cases s with
  | ofClass className method => exact h.findMethod htarget
  | ofObject r method =>
    rw [Machine.target?] at htarget
    split at htarget
    · next hframe =>
      obtain ⟨name, hname, hbody⟩ := Option.bind_eq_some_iff.1 htarget
      have hclass : classOf ⟨id, frame⟩ r w = (.ok name, w) := by
        simp [classOf, hframe, h.machine, hname]
      rw [lookup, Act.bind_eq, hclass]
      exact h.findMethod hbody
    · cases htarget

theorem resolve_of_finds (h : w.Runs id m) (hs : s.Finds m frame body) :
    resolve ⟨id, frame⟩ s w =
      (.ok ⟨id, m.counters.globalRefsCreated, s.variant, s.method, body⟩,
        w.count id .countResolution) := by
  have hcounted := w.count_resolution id
  have hcreated : ((w.count id .countHandle).count id .countLookup).referencesCreated id =
      m.counters.globalRefsCreated := by
    rw [World.referencesCreated, ((h.count _).count _).counters]
    rfl
  rw [resolve, if_pos hs.comparator, Act.bind_eq, h.requestHandle]
  simp only [resolveTarget, Act.bind_eq, lookup_of_finds (h.count _) (hs.count _), Act.look,
    Act.change, hcreated, hcounted]
  rfl

theorem establish_of_finds (h : w.Runs id m) (hs : s.Finds m frame body) :
    Registry.establish ⟨id, frame⟩ s w =
      (.ok ⟨id, m.counters.globalRefsCreated, s.variant, s.method, body⟩,
        (w.count id .countResolution).notify (.level .info) "binding_established"
          (Registry.establishedFields s)) := by
  rw [Registry.establish, resolve_of_finds h hs]

/-- Among the benchmark's classes, the static comparator puts elements in ascending order. -/
theorem Source.finds_benchmark (h : m.classes = Class.benchmarks) :
    Source.benchmark.Finds m frame .ascending := by
  refine ⟨rfl, ?_⟩
  rw [Source.benchmark, Machine.target?, Machine.body?, Machine.class?, h]
  rfl

/-- So does the comparator object of a frame. -/
theorem Source.finds_comparator (h : m.classes = Class.benchmarks) {r : LocalRef}
    (hframe : r.frame = frame) (hobject : m.objects[r.object]? = some ascendingClass) :
    (Source.comparator r).Finds m frame .ascending := by
  refine ⟨rfl, ?_⟩
  rw [Source.comparator, Machine.target?, if_pos hframe, hobject, Option.bind_some, Machine.body?,
    Machine.class?, h]
  rfl

namespace Registry
variable {r : Registry σ}

theorem bind_of_finds (h : w.Runs id m) (hs : s.Finds m frame body) (hr : r.Serves id body) :
    ∃ b r' w', r.bind ⟨id, frame⟩ s w = (.ok b, r', w') ∧ b.machine = id ∧ b.body = body ∧
      r'.isBound ∧ r'.Serves id body ∧ w'.attached = w.attached ∧ w'.memory = w.memory ∧
        w'.Runs id (m.count (if r.isBound then fun c => c else .countResolution)) := by
  cases hbound : r.binding with
  | some b =>
    obtain ⟨hmachine, hbody⟩ := hr b hbound
    have hisBound : r.isBound := by rw [isBound, hbound]; rfl
    refine ⟨b, r, w, bind_of_bound hbound _ s w, hmachine, hbody, hisBound, hr, rfl, rfl, ?_⟩
    rw [if_pos hisBound]
    exact h
  | none =>
    have hunbound : r.isBound = false := by rw [isBound, hbound]; rfl
    have hbind : r.bind ⟨id, frame⟩ s w =
        (.ok ⟨id, m.counters.globalRefsCreated, s.variant, s.method, body⟩,
          ⟨some ⟨id, m.counters.globalRefsCreated, s.variant, s.method, body⟩⟩,
          (w.count id .countResolution).notify (.level .info) "binding_established"
            (establishedFields s)) := by
      rw [bind, hbound, establish_of_finds h hs]
    refine ⟨_, _, _, hbind, rfl, rfl, rfl, ?_, rfl, rfl, ?_⟩
    · rintro b ⟨⟩
      exact ⟨rfl, rfl⟩
    · rw [hunbound]
      exact (h.count _).notify ..

/-- A sort through a registry is one through the binding it comes to. -/
theorem sort_of_bind {c : Context} {b : Binding σ} {r' : Registry σ} {w' : World σ}
    (h : r.bind c s w = (.ok b, r', w')) (thread : Thread) (part : Segment)
    (buffer : Array Int32) :
    r.sort thread c s part buffer w = (b.sort thread part buffer w', r') := by
  rw [Registry.sort, sortWith, h]

end Registry

/-! ### Sorting in ascending order -/

variable {thread : Thread} {buffer : Array Int32}

theorem Binding.sort_of_runs {b : Binding σ} (h : w.Runs id m) (hmachine : b.machine = id)
    (hbody : b.body = .ascending) (hattached : w.isAttached thread id) (buffer : Array Int32) :
    b.sort thread (.whole buffer) buffer w =
      ⟨.ok (), (Sort.ascendingWalk buffer).1,
        w.countQuestions id (Sort.ascendingCalls buffer)⟩ := by
  subst hmachine
  have hundisturbed : b.isUndisturbed thread w := by
    simp [isUndisturbed, hbody, Body.isAscending, h.not_faulty, hattached]
  exact sort_eq_of_isUndisturbed hundisturbed buffer

/-- A sort through a registry that leads to the ascending order. -/
theorem Registry.sort_of_finds {r : Registry σ} (h : w.Runs id m)
    (hs : s.Finds m frame .ascending) (hr : r.Serves id .ascending)
    (hattached : w.isAttached thread id) (buffer : Array Int32) :
    ∃ r' w', r.sort thread ⟨id, frame⟩ s (.whole buffer) buffer w =
        (⟨.ok (), (Sort.ascendingWalk buffer).1, w'⟩, r') ∧
      r'.isBound ∧ r'.Serves id .ascending ∧ w'.attached = w.attached ∧
        w'.Runs id (m.count fun c =>
          (if r.isBound then c else c.countResolution).countQuestions
            (Sort.ascendingCalls buffer)) := by
  obtain ⟨b, r', w', hbind, hmachine, hbody, hbound, hserves, hsame, -, hruns⟩ :=
    bind_of_finds h hs hr
  have hattached' : w'.isAttached thread id := by rwa [World.isAttached, hsame]
  have hsorted := Binding.sort_of_runs hruns hmachine hbody hattached' buffer
  refine ⟨r', w'.countQuestions id (Sort.ascendingCalls buffer), ?_, hbound, hserves, hsame, ?_⟩
  · rw [sort_of_bind hbind, hsorted]
  · cases hb : r.isBound <;> rw [hb] at hruns <;> exact hruns.count _

/-- A sort with a binding of its own, whose reference is given back. -/
theorem sortFresh_of_finds (h : w.Runs id m) (hs : s.Finds m frame .ascending)
    (hattached : w.isAttached thread id) (buffer : Array Int32) :
    ∃ w', sortFresh thread ⟨id, frame⟩ s (.whole buffer) buffer w =
        ⟨.ok (), (Sort.ascendingWalk buffer).1, w'⟩ ∧
      w'.attached = w.attached ∧
        w'.Runs id (m.count fun c =>
          (c.countResolution.countQuestions (Sort.ascendingCalls buffer)).countRelease) := by
  have hruns := h.count Counters.countResolution
  let b : Binding σ := ⟨id, m.counters.globalRefsCreated, s.variant, s.method, .ascending⟩
  have hsorted := b.sort_of_runs hruns rfl rfl hattached buffer
  refine ⟨b.release ((w.count id .countResolution).countQuestions id (Sort.ascendingCalls buffer)),
    ?_, rfl, (hruns.count _).count _⟩
  simp only [sortFresh, sortFreshWith, resolve_of_finds h hs]
  change (let sorted := b.sort thread (.whole buffer) buffer (w.count id .countResolution)
    { sorted with memory := b.release sorted.memory } : Sorted σ) = _
  rw [hsorted]

end
end CallBridge.Bridge
