import CallBridge.Bench.Run
import CallBridge.Proofs.Bench.Obliging
import CallBridge.Proofs.Bridge.Untroubled

/-!
# What calls cost

A tally says how a workbench with the benchmark's classes stands: whether the main thread has
entered, which of its registries are bound, how many bindings were made for one sort alone, and how
many questions were asked. The counts of the runtime are those of the tally (`Workbench.Stands`). A
call moves the tally on by its shape (`Trial.Ready.call`), and so does every stretch of calls.
-/

namespace CallBridge.CText.PatternTable

/-- Every text is a pattern with its terminator. -/
def Sound (t : PatternTable) : Prop := ∀ text ∈ t.texts, ∃ n, text.memory = terminated (pattern n)

theorem Sound.get {t : PatternTable} (h : t.Sound) (request : Nat) :
    (∃ n, (t.get request).1.memory = terminated (pattern n)) ∧ (t.get request).2.Sound := by
  have hfound : ∀ {length text}, t.find? length = some text →
      ∃ n, text.memory = terminated (pattern n) := fun hfind =>
    h _ (List.mem_of_find?_eq_some hfind)
  unfold PatternTable.get
  dsimp only
  cases hfind : t.find? (min request maxLength) with
  | some text => exact ⟨hfound hfind, h⟩
  | none =>
    simp only [add, hfind]
    refine ⟨⟨_, rfl⟩, ?_⟩
    intro text hmem
    rcases List.mem_append.1 hmem with hmem | hmem
    · exact h text hmem
    · obtain rfl := List.mem_singleton.1 hmem
      exact ⟨_, rfl⟩

end CallBridge.CText.PatternTable

namespace CallBridge.Bench
open Bridge Managed

variable {σ : Type}

/-- A pattern has no terminator inside of it. -/
theorem terminatedText_pattern (n : Nat) :
    terminatedText (CText.terminated (CText.pattern n)).dropLast =
      .ok (CText.terminated (CText.pattern n)) := by
  have hnone : (CText.pattern n).findIdx? (· = 0) = none := by
    rw [List.findIdx?_eq_none_iff]
    intro x hx
    obtain ⟨i, -, rfl⟩ := List.mem_map.1 hx
    have hbyte : 65 + i % 26 < 256 := by omega
    simp [CText.patternByte, ← UInt8.toNat_inj]
    omega
  have hbytes : (CText.terminated (CText.pattern n)).dropLast = CText.pattern n :=
    List.dropLast_concat
  rw [hbytes, terminatedText, hnone]

/-! ### Tallies -/

/-- How a workbench stands after some work. -/
structure Tally where
  entered : Bool := false
  statics : Bool := false
  instances : Bool := false
  fresh : Nat := 0
  asked : Nat := 0

namespace Tally

/-- How many references are held. -/
def held (k : Tally) : Nat := k.statics.toNat + k.instances.toNat

/-- What the runtime counted. -/
def counters (k : Tally) : Counters where
  handleRequests := k.held + k.fresh
  methodLookups := k.held + k.fresh
  globalRefsCreated := k.held + k.fresh
  liveGlobalRefs := k.held
  attachChecks := k.asked
  attachments := k.entered.toNat
  invocations := k.asked

/-- A call of a shape, whose sort asks so many questions. -/
def call (k : Tally) (shape : CallShape) (questions : Nat) : Tally :=
  match shape with
  | .qsortStatic => { k with statics := true, asked := k.asked + questions }
  | .qsortInstance => { k with instances := true, asked := k.asked + questions }
  | .qsortFresh => { k with fresh := k.fresh + 1, asked := k.asked + questions }
  | _ => k

/-- So many calls. -/
def calls (k : Tally) (shape : CallShape) (questions : Nat) : Nat → Tally
  | 0 => k
  | n + 1 => (k.call shape questions).calls shape questions n

end Tally

/-- The workbench and its runtime stand as the tally says, and nothing troubles them. -/
structure Workbench.Stands (b : Workbench σ) (m : Machine σ) (k : Tally) : Prop where
  runs : b.world.Runs machine m
  classes : m.classes = Class.benchmarks
  counters : m.counters = k.counters
  entered : b.world.isAttached .main machine = k.entered
  statics : b.statics.isBound = k.statics
  instances : b.instances.isBound = k.instances
  staticServes : b.statics.Serves machine .ascending
  instanceServes : b.instances.Serves machine .ascending
  patterns : b.patterns.Sound

theorem Workbench.Stands.counters_eq {b : Workbench σ} {m : Machine σ} {k : Tally}
    (h : b.Stands m k) : b.counters = k.counters := by
  rw [Workbench.counters, h.runs.counters, h.counters]

/-- Asking for a pattern leaves the tally as it is. -/
theorem Workbench.Stands.requested {b : Workbench σ} {m : Machine σ} {k : Tally}
    (h : b.Stands m k) (request : Nat) :
    Stands { b with patterns := (b.patterns.get request).2 } m k :=
  { h with patterns := (h.patterns.get request).2 }

theorem stands_standard (log : Option Log.Emitter) :
    Workbench.Stands { Workbench.standard with log } { classes := Class.benchmarks } {} where
  runs := ⟨rfl, rfl⟩
  classes := rfl
  counters := rfl
  entered := rfl
  statics := rfl
  instances := rfl
  staticServes := Registry.serves_new _ _
  instanceServes := Registry.serves_new _ _
  patterns := fun _ h => by cases h

/-- The trial was prepared in a frame of this runtime, with a comparator object of this frame. -/
structure Trial.Prepared (t : Trial) (m : Machine σ) : Prop where
  context : t.context.machine = Workbench.machine
  frame : t.comparator.frame = t.context.frame
  object : m.objects[t.comparator.object]? = some ascendingClass

/-- The trial can be called at the workbench, which stands so. -/
def Trial.Ready (t : Trial) (b : Workbench σ) (k : Tally) : Prop :=
  k.entered ∧ ∃ m, b.Stands m k ∧ t.Prepared m

/-- The trial `t'` is `t` after some calls, ready at the workbench, which stands so. -/
structure Trial.After (t t' : Trial) (b : Workbench σ) (k : Tally) : Prop where
  shape : t'.shape = t.shape
  input : t'.input = t.input
  ready : t'.Ready b k

/-- The trial after a call that succeeds: a sort leaves the input in ascending order. -/
def Trial.called (t : Trial) : Trial :=
  if t.shape.isSort then { t with buffer := (Sort.ascendingWalk t.input).1 } else t

namespace Trial
variable {t t' t'' : Trial} {b b' : Workbench σ} {m m' : Machine σ} {k k' : Tally}

theorem After.trans (h : t.After t' b k) (h' : t'.After t'' b' k') : t.After t'' b' k' :=
  ⟨h'.shape.trans h.shape, h'.input.trans h.input, h'.ready⟩

/-- A trial stays ready while its runtime keeps its objects, whatever else is done. -/
theorem Ready.moved (h : t.Ready b k) (hb : b.Stands m k) (hb' : b'.Stands m' k')
    (hentered : k.entered → k'.entered)
    (hobjects : ∀ (i : Nat) name, m.objects[i]? = some name → m'.objects[i]? = some name) :
    t.Ready b' k' := by
  obtain ⟨hready, m₁, hb₁, ht⟩ := h
  obtain rfl : m₁ = m := Option.some.inj (hb₁.runs.machine.symm.trans hb.runs.machine)
  exact ⟨hentered hready, m', hb', ht.context, ht.frame, hobjects _ _ ht.object⟩

/-- So it does while its runtime only counts. -/
theorem Ready.counted (h : t.Ready b k) (hb : b.Stands m k) {f : Counters → Counters}
    (hb' : b'.Stands (m.count f) k') (hentered : k'.entered = k.entered) : t.Ready b' k' :=
  h.moved hb hb' (fun hk => hentered.trans hk) fun _ _ hobject => hobject

theorem called_of_isSort (h : t.shape.isSort) :
    t.called = { t with buffer := (Sort.ascendingWalk t.input).1 } := if_pos h

theorem called_of_not_isSort (h : t.shape.isSort = false) : t.called = t :=
  if_neg (by rw [h]; exact Bool.false_ne_true)

@[simp] theorem shape_called (t : Trial) : t.called.shape = t.shape := by
  unfold called
  split <;> rfl

@[simp] theorem input_called (t : Trial) : t.called.input = t.input := by
  unfold called
  split <;> rfl

@[simp] theorem length_called (t : Trial) : t.called.length = t.length := by
  unfold called
  split <;> rfl

theorem Ready.called (h : t.Ready b k) : t.called.Ready b k := by
  unfold Trial.called
  split
  · exact ⟨h.1, h.2.imp fun m hm => ⟨hm.1, hm.2.context, hm.2.frame, hm.2.object⟩⟩
  · exact h

theorem sortWith_eq (r : Registry σ) (c : Context) (s : Source) (w : World σ) :
    r.sortWith c s t.sortInput t.input w = r.sort .main c s (.whole t.input) t.input w := by
  have hsort : t.sortInput = fun (b : Binding σ) w => b.sort .main (.whole t.input) t.input w :=
    funext fun b => funext fun w => t.sortInput_eq b w
  rw [hsort]
  rfl

theorem sortFreshWith_eq (c : Context) (s : Source) (w : World σ) :
    sortFreshWith c s t.sortInput t.input w =
      sortFresh .main c s (.whole t.input) t.input w := by
  have hsort : t.sortInput = fun (b : Binding σ) w => b.sort .main (.whole t.input) t.input w :=
    funext fun b => funext fun w => t.sortInput_eq b w
  rw [hsort]
  rfl

theorem Prepared.context_eq (ht : t.Prepared m) :
    t.context = ⟨Workbench.machine, t.context.frame⟩ := by
  rw [← ht.context]

end Trial

/-- The counts of a sort through a registry, of which a bound one costs no resolution. -/
theorem Tally.counters_static (k : Tally) (n : Nat) :
    (if k.statics then k.counters else k.counters.countResolution).countQuestions n =
      (k.call .qsortStatic n).counters := by
  cases hk : k.statics with
  | false =>
    simp [counters, held, call, hk, Counters.countQuestions, Counters.countResolution,
      Counters.countHandle, Counters.countLookup, Counters.countPromotion]
    omega
  | true => simp [counters, held, call, hk, Counters.countQuestions]

theorem Tally.counters_instance (k : Tally) (n : Nat) :
    (if k.instances then k.counters else k.counters.countResolution).countQuestions n =
      (k.call .qsortInstance n).counters := by
  cases hk : k.instances with
  | false =>
    simp [counters, held, call, hk, Counters.countQuestions, Counters.countResolution,
      Counters.countHandle, Counters.countLookup, Counters.countPromotion]
    omega
  | true => simp [counters, held, call, hk, Counters.countQuestions]

theorem Tally.counters_fresh (k : Tally) (n : Nat) :
    ((k.counters.countResolution).countQuestions n).countRelease =
      (k.call .qsortFresh n).counters := by
  simp [counters, held, call, Counters.countQuestions, Counters.countResolution,
    Counters.countHandle, Counters.countLookup, Counters.countPromotion, Counters.countRelease]
  omega

/-- The workbench after a sort: its registries, and the counts of its runtime. -/
theorem Workbench.Stands.sorted {b : Workbench σ} {m : Machine σ} {k k' : Tally}
    (h : b.Stands m k) {w : World σ} {f : Counters → Counters} {statics instances : Registry σ}
    (hruns : w.Runs machine (m.count f)) (hattached : w.attached = b.world.attached)
    (hcounters : f k.counters = k'.counters) (hentered : k'.entered = k.entered)
    (hstatics : statics.isBound = k'.statics) (hinstances : instances.isBound = k'.instances)
    (hs : statics.Serves machine .ascending) (hi : instances.Serves machine .ascending) :
    Stands { b with world := w, statics, instances } (m.count f) k' where
  runs := hruns
  classes := h.classes
  counters := by rw [← hcounters, ← h.counters]; rfl
  entered := by rw [World.isAttached, hattached, hentered, ← h.entered]; rfl
  statics := hstatics
  instances := hinstances
  staticServes := hs
  instanceServes := hi
  patterns := h.patterns

namespace Trial
variable {t t' : Trial} {b : Workbench σ} {m : Machine σ} {k : Tally}

/-- Calls that ask no managed code leave the tally as it is. -/
theorem Ready.call_native (h : t.Ready b k) (hshape : t.shape.isBridged = false) :
    ∃ reply b', t.call b = (.ok reply, t.called, b') ∧
      ∀ t' : Trial, t'.Ready b k → t'.Ready b' k := by
  obtain ⟨-, m, hb, -⟩ := h
  have hstays : t.shape.isSort = false → ∀ reply, t.call b = (.ok reply, t, b) →
      ∃ reply b', t.call b = (.ok reply, t.called, b') ∧
        ∀ t' : Trial, t'.Ready b k → t'.Ready b' k := fun hsort reply hcall =>
    ⟨reply, b, by rw [hcall, called_of_not_isSort hsort], fun _ h' => h'⟩
  cases hs : t.shape with
  | noop | acceptString => exact hstays (by rw [hs]; rfl) .nothing (by rw [Trial.call, hs])
  | strlen =>
    exact hstays (by rw [hs]; rfl) (.length (CText.reportedLength (some t.text)))
      (by rw [Trial.call, hs])
  | sysinfo => exact hstays (by rw [hs]; rfl) (.memory kernel) (by rw [Trial.call, hs])
  | getString =>
    have hstands := hb.requested (CText.requestedLength t.requestLength)
    refine ⟨.text (b.patterns.get (CText.requestedLength t.requestLength)).1.memory, _, ?_,
      fun _ h' => h'.moved hb hstands id fun _ _ hobject => hobject⟩
    rw [Trial.call, hs, called_of_not_isSort (by rw [hs]; rfl)]
  | qsortNative =>
    refine ⟨.nothing, b, ?_, fun _ h' => h'⟩
    rw [Trial.call, hs, called_of_isSort (by rw [hs]; rfl), ← t.prospect.outcome_get]
    rfl
  | qsortStatic | qsortInstance | qsortFresh => rw [hs] at hshape; cases hshape

theorem Ready.call_static (h : t.Ready b k) (hshape : t.shape = .qsortStatic) :
    ∃ reply b', t.call b = (.ok reply, t.called, b') ∧ ∀ t' : Trial, t'.Ready b k →
      t'.Ready b' (k.call .qsortStatic (Sort.ascendingCalls t.input)) := by
  obtain ⟨hentered, m, hb, ht⟩ := h
  have hattached : b.world.isAttached .main Workbench.machine := hb.entered.trans hentered
  obtain ⟨r, w, hsort, hbound, hserves, hsame, hruns⟩ := Registry.sort_of_finds hb.runs
    (Source.finds_benchmark hb.classes) hb.staticServes hattached t.input
  rw [← ht.context_eq] at hsort
  rw [hb.statics] at hruns
  have hstands : Workbench.Stands { b with statics := r, world := w } _ (k.call .qsortStatic _) :=
    hb.sorted hruns hsame (k.counters_static _) rfl hbound hb.instances hserves hb.instanceServes
  refine ⟨.nothing, { b with statics := r, world := w }, ?_,
    fun _ h' => h'.counted hb hstands rfl⟩
  rw [Trial.call, hshape, called_of_isSort (by rw [hshape]; rfl)]
  dsimp only
  rw [sortWith_eq, hsort]
  rfl

theorem Ready.call_instance (h : t.Ready b k) (hshape : t.shape = .qsortInstance) :
    ∃ reply b', t.call b = (.ok reply, t.called, b') ∧ ∀ t' : Trial, t'.Ready b k →
      t'.Ready b' (k.call .qsortInstance (Sort.ascendingCalls t.input)) := by
  obtain ⟨hentered, m, hb, ht⟩ := h
  have hattached : b.world.isAttached .main Workbench.machine := hb.entered.trans hentered
  obtain ⟨r, w, hsort, hbound, hserves, hsame, hruns⟩ := Registry.sort_of_finds hb.runs
    (Source.finds_comparator hb.classes ht.frame ht.object) hb.instanceServes hattached t.input
  rw [← ht.context_eq] at hsort
  rw [hb.instances] at hruns
  have hstands : Workbench.Stands { b with instances := r, world := w } _
      (k.call .qsortInstance _) :=
    hb.sorted hruns hsame (k.counters_instance _) rfl hb.statics hbound hb.staticServes hserves
  refine ⟨.nothing, { b with instances := r, world := w }, ?_,
    fun _ h' => h'.counted hb hstands rfl⟩
  rw [Trial.call, hshape, called_of_isSort (by rw [hshape]; rfl)]
  dsimp only
  rw [sortWith_eq, hsort]
  rfl

theorem Ready.call_fresh (h : t.Ready b k) (hshape : t.shape = .qsortFresh) :
    ∃ reply b', t.call b = (.ok reply, t.called, b') ∧ ∀ t' : Trial, t'.Ready b k →
      t'.Ready b' (k.call .qsortFresh (Sort.ascendingCalls t.input)) := by
  obtain ⟨hentered, m, hb, ht⟩ := h
  have hattached : b.world.isAttached .main Workbench.machine := hb.entered.trans hentered
  obtain ⟨w, hsort, hsame, hruns⟩ := sortFresh_of_finds hb.runs
    (Source.finds_comparator hb.classes ht.frame ht.object) hattached t.input
  rw [← ht.context_eq] at hsort
  have hstands : Workbench.Stands { b with world := w } _ (k.call .qsortFresh _) :=
    hb.sorted hruns hsame (k.counters_fresh _) rfl hb.statics hb.instances hb.staticServes
      hb.instanceServes
  refine ⟨.nothing, { b with world := w }, ?_, fun _ h' => h'.counted hb hstands rfl⟩
  rw [Trial.call, hshape, called_of_isSort (by rw [hshape]; rfl)]
  dsimp only
  rw [sortFreshWith_eq, hsort]
  rfl

/-- A call succeeds and moves the tally on by its shape. Every trial that was ready stays so. -/
theorem Ready.call (h : t.Ready b k) :
    ∃ reply b', t.call b = (.ok reply, t.called, b') ∧ ∀ t' : Trial, t'.Ready b k →
      t'.Ready b' (k.call t.shape (Sort.ascendingCalls t.input)) := by
  cases hshape : t.shape with
  | qsortStatic => exact h.call_static hshape
  | qsortInstance => exact h.call_instance hshape
  | qsortFresh => exact h.call_fresh hshape
  | _ => exact h.call_native (by rw [hshape]; rfl)

/-- So does every stretch of calls. -/
theorem Ready.repeatCall (h : t.Ready b k) (n : Nat) :
    ∃ t' b', repeatCall n t b = (.ok (), t', b') ∧
      t.After t' b' (k.calls t.shape (Sort.ascendingCalls t.input) n) := by
  induction n generalizing t b k with
  | zero => exact ⟨t, b, rfl, rfl, rfl, h⟩
  | succ n ih =>
    obtain ⟨reply, b₁, hcall, hkeeps⟩ := h.call
    have hafter : t.After t.called b₁ _ := ⟨t.shape_called, t.input_called, hkeeps _ h.called⟩
    obtain ⟨t₂, b₂, hrest, hafter'⟩ := ih hafter.ready
    rw [hafter.shape, hafter.input] at hafter'
    refine ⟨t₂, b₂, ?_, hafter.trans hafter'⟩
    rw [Trial.repeatCall, hcall]
    exact hrest

theorem Ready.calls (h : t.Ready b k) (bytes n : Nat) :
    Task.Yields bytes (t.calls n) b fun t' b' =>
      t.After t' b' (k.calls t.shape (Sort.ascendingCalls t.input) n) := by
  obtain ⟨t', b', hrepeat, hafter⟩ := h.repeatCall n
  intro host hh
  refine ⟨t', b', host, ?_, hh, hafter⟩
  rw [Trial.calls, hrepeat]
  rfl

/-! ### Preparing a trial -/

theorem counters_entered (k : Tally) :
    (if k.entered then fun c => c else Counters.countAttachment) k.counters =
      Tally.counters { k with entered := true } := by
  cases hk : k.entered <;> simp [Tally.counters, Tally.held, Counters.countAttachment, hk]

/-- The main thread enters and makes a comparator object; the older objects stay. -/
theorem exists_entered {b : Workbench σ} (hb : b.Stands m k) :
    ∃ c w r w' m', enter .main Workbench.machine b.world = (.ok c, w) ∧
      newObject c ascendingClass w = (.ok r, w') ∧
      Workbench.Stands { b with world := w' } m' { k with entered := true } ∧
      c.machine = Workbench.machine ∧ r.frame = c.frame ∧
      m'.objects[r.object]? = some ascendingClass ∧
      ∀ (i : Nat) name, m.objects[i]? = some name → m'.objects[i]? = some name := by
  obtain ⟨w, henter, hattached, -, hruns⟩ := hb.runs.enter .main
  have hclass : m.class? ascendingClass = some (.ascending ascendingClass) := by
    rw [Machine.class?, hb.classes]
    rfl
  obtain ⟨r, w', m', hmade, hframe, hruns', hsame, hobject, hclasses, hcounters, hkept⟩ :=
    hruns.newObject hclass (m.frames + 1)
  refine ⟨_, w, r, w', m', henter, hmade, ?_, rfl, hframe, hobject, hkept⟩
  exact {
    runs := hruns'
    classes := hclasses.trans hb.classes
    counters := by
      rw [hcounters, ← counters_entered, ← hb.entered, ← hb.counters]
      rfl
    entered := by rw [World.isAttached, hsame]; exact hattached
    statics := hb.statics
    instances := hb.instances
    staticServes := hb.staticServes
    instanceServes := hb.instanceServes
    patterns := hb.patterns }

/-- The trial is as it was asked for, and has not been called. -/
structure Starts (t : Trial) (s : CallShape) (n : Nat) (a : Arrangement) (seed : UInt64) :
    Prop where
  shape : t.shape = s
  length : t.length = n
  input : t.input = generate a n seed
  buffer : t.buffer = t.input

/-- A trial can always be prepared, and then called. Every trial that was ready stays so. -/
theorem exists_prepared {b : Workbench σ} (hb : b.Stands m k) (shape : CallShape) (length : Nat)
    (arrangement : Arrangement) (seed : UInt64) :
    ∃ t b', prepare shape length arrangement seed b = .done (.ok t, b') ∧
      t.Starts shape length arrangement seed ∧ t.Ready b' { k with entered := true } ∧
      ∀ t' : Trial, t'.Ready b k → t'.Ready b' { k with entered := true } := by
  obtain ⟨c, w, r, w', m', henter, hobject, hstands, hcontext, hframe, hobjects, hkept⟩ :=
    exists_entered hb
  obtain ⟨⟨n, hmemory⟩, -⟩ := hb.patterns.get length
  have hstands' := hstands.requested length
  have hentered : Task.act (enter .main Workbench.machine) b =
      .done (.ok c, { b with world := w }) := by
    rw [Task.act, Workbench.act, henter]
  have hmade : Task.act (newObject c ascendingClass) { b with world := w } =
      .done (.ok r, { b with world := w' }) := by
    rw [Task.act, Workbench.act]
    dsimp only
    rw [hobject]
  have hprepared : prepare shape length arrangement seed b = .done (.ok {
      shape, length
      context := c
      comparator := r
      input := generate arrangement length seed
      prospect := .of _
      buffer := generate arrangement length seed
      text := CText.terminated (CText.pattern n) },
      { b with world := w', patterns := (b.patterns.get length).2 }) := by
    rw [prepare, Task.bind_of_done hentered, Task.bind_of_done hmade, Task.bind_of_done rfl,
      Task.bind_of_done rfl]
    dsimp only
    rw [hmemory, terminatedText_pattern]
    rfl
  exact ⟨_, _, hprepared, ⟨rfl, rfl, rfl, rfl⟩, ⟨rfl, m', hstands', hcontext, hframe, hobjects⟩,
    fun t' h' => h'.moved hb hstands' (fun _ => rfl) hkept⟩

theorem yields_prepare {b : Workbench σ} (hb : b.Stands m k) (bytes : Nat) (shape : CallShape)
    (length : Nat) (arrangement : Arrangement) (seed : UInt64) :
    Task.Yields bytes (prepare shape length arrangement seed) b fun t b' =>
      t.shape = shape ∧ t.input = generate arrangement length seed ∧
        t.Ready b' { k with entered := true } := by
  obtain ⟨t, b', hprepared, hstarts, hready, -⟩ := exists_prepared hb shape length arrangement seed
  intro host hh
  exact ⟨t, b', host, by rw [hprepared]; rfl, hh, hstarts.shape, hstarts.input, hready⟩

end Trial

/-! ### Tallies of many calls -/

namespace Tally
variable (k : Tally) (shape : CallShape) (questions : Nat)

theorem calls_add (m n : Nat) :
    k.calls shape questions (m + n) = (k.calls shape questions m).calls shape questions n := by
  induction m generalizing k with
  | zero => rw [Nat.zero_add]; rfl
  | succ m ih =>
    rw [Nat.succ_add]
    exact ih (k.call shape questions)

theorem calls_of_not_bridged (h : shape.isBridged = false) (n : Nat) :
    k.calls shape questions n = k := by
  have hcall : k.call shape questions = k := by
    cases shape <;> first | rfl | cases h
  induction n with
  | zero => rfl
  | succ n ih => rw [calls, hcall, ih]

theorem asked_call : (k.call shape questions).asked =
    k.asked + if shape.isBridged then questions else 0 := by
  cases shape <;> rfl

/-- After some calls the registry of their shape is bound, and each was paid for. -/
theorem calls_succ (n : Nat) :
    k.calls shape questions (n + 1) =
      { k with
        statics := k.statics || shape = .qsortStatic
        instances := k.instances || shape = .qsortInstance
        fresh := k.fresh + (n + 1) * if shape = .qsortFresh then 1 else 0
        asked := k.asked + (n + 1) * if shape.isBridged then questions else 0 } := by
  induction n generalizing k with
  | zero => cases shape <;> simp [calls, call, CallShape.isBridged]
  | succ n ih =>
    rw [calls, ih, Nat.succ_mul (n + 1), Nat.succ_mul (n + 1)]
    cases shape <;> simp [call, CallShape.isBridged] <;> omega

end Tally
end CallBridge.Bench
