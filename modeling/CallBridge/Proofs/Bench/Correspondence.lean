import CallBridge.Proofs.Bench.Lines

/-!
# Measurements and their lines

With a log in memory a run comes to an end in one of four ways (`Course`): it is refused, every pair
of its plan is visited, or a visit fails and no pair after it is visited, with a line for the failure
unless the process breaks down by it. Either way the log grows by one line for each measurement, in
the order of the measurements, and the lines are numbered without a gap (`run_logged`).
-/

namespace CallBridge

namespace Log.Emitter

/-- The emitter began and wrote these entries, with the numbers that came next, and no others. -/
structure Adds (log : Emitter) (entries : List Entry) (log' : Emitter) : Prop where
  after : log' = { log with
    issued := log.issued + entries.length
    lines := log.lines ++ entries.map (·.line) }
  traceIds : entries.map (·.traceId) =
    (List.range' (log.issued + 1) entries.length).map (traceId log.kind log.runId)

variable {log log₁ log₂ : Emitter} {es es' : List Entry}

theorem Adds.nil (log : Emitter) : log.Adds [] log := ⟨by simp, rfl⟩

theorem adds_write {e : Entry} (hid : e.traceId = traceId log.kind log.runId (log.issued + 1)) :
    log.Adds [e] (write { log with issued := log.issued + 1 } e) where
  after := by simp [write]
  traceIds := by simp [hid]

theorem Adds.append (h : log.Adds es log₁) (h' : log₁.Adds es' log₂) :
    log.Adds (es ++ es') log₂ := by
  obtain ⟨rfl, hids⟩ := h
  obtain ⟨rfl, hids'⟩ := h'
  refine ⟨?_, ?_⟩
  · have hlines : log.lines ++ es.map (·.line) ++ es'.map (·.line) =
        log.lines ++ (es ++ es').map (·.line) := Array.toList_inj.1 (by simp)
    simp only [hlines, List.length_append, Nat.add_assoc]
  · rw [List.map_append, hids, hids', ← List.map_append, List.length_append,
      ← List.range'_append_1, Nat.add_right_comm]

end Log.Emitter

/-- A host without an open log has nothing to write a line to. -/
theorem Host.appendLog_of_none {h : Host} (hlog : h.log = none) (line : String) :
    h.appendLog line = (.ok (), h) := by
  simp [appendLog, writeLog, hlog]

namespace Bench
open Log Managed

variable {σ α : Type}

namespace Task
variable {b : Workbench σ} {h : Host}

theorem run_ask (r : Request α) :
    ((ask r : Task σ α) b).run h = ((.ok (h.serve r).1, b), (h.serve r).2) := rfl

theorem run_look {g : Workbench σ → α} {a : α} (ha : g b = a) :
    (look g b).run h = ((.ok a, b), h) := by
  subst ha
  rfl

theorem run_report (notices : List Diagnostic.Notice) (b : Workbench σ) (h : Host) :
    ∃ h', (report notices b).run h = ((.ok (), b), h') ∧ h'.log = h.log := by
  induction notices generalizing h with
  | nil => exact ⟨h, rfl, rfl⟩
  | cons n rest ih =>
    let now := h.serve .wallTime
    obtain ⟨h', hrun, hlog⟩ := ih (now.2.serve (.report (n.render now.1.stamp))).2
    refine ⟨h', ?_, hlog⟩
    refine (run_bind_ok (run_ask _)).trans ?_
    exact (run_bind_ok (run_ask _)).trans hrun

/-- Announcing does not fail, and has nothing to do with the log. -/
theorem run_announce (b : Workbench σ) (h : Host) :
    ∃ b' h', (announce b).run h = ((.ok (), b'), h') ∧ b'.log = b.log ∧ h'.log = h.log := by
  let notices := Diagnostic.Notice.passing b.threshold (b.world.notices.toList.drop b.announced)
  let b' := { b with announced := b.world.notices.size }
  obtain ⟨h', hrun, hlog⟩ := run_report notices b' h
  refine ⟨b', h', ?_, rfl, hlog⟩
  refine (run_bind_ok (run_look rfl)).trans ?_
  exact (run_bind_ok rfl).trans hrun

/-- An entry that was begun goes to the log of the workbench, and nothing else happens. -/
theorem run_write (hh : h.log = none) (log : Emitter) (e : Entry) (hid : e.traceId ≠ "")
    (hkind : e.runKind ≠ none) (b : Workbench σ) :
    (write log e b).run h = ((.ok (), { b with log := some (log.write e) }), h) := by
  unfold write
  rw [log.complete_of_begun hid hkind]
  refine (run_bind_ok rfl).trans ?_
  refine (run_bind_ok (run_ask _)).trans ?_
  rw [show h.serve (.appendLog e.line) = (.ok (), h) from Host.appendLog_of_none hh e.line]
  rfl

end Task

/-! ### What the lines tell -/

/-- The entry tells of a measurement. -/
structure Tells (m : Measurement) (e : Entry) : Prop where
  event : e.event = "measurement"
  level : e.level = .info
  shape : e.shape = some m.shape
  length : e.length = some m.length
  input : e.input = some m.input.name
  latency : e.latency = some m.latency.mean
  rate : e.rate = some m.rate
  bridgeCalls : e.bridgeCalls = m.bridgeCalls
  outcome : e.outcome = some .pass

/-- The entry tells that a pair of a plan could not be measured, and why. -/
structure TellsFailure (p : Plan) (pair : CallShape × Nat) (error : RunError) (e : Entry) :
    Prop where
  event : e.event = "measurement_failed"
  level : e.level = .error
  shape : e.shape = some pair.1
  length : e.length = some pair.2
  input : e.input = some p.input.name
  outcome : e.outcome = some .error
  details : e.details = some (.object [("error", .str error.message)])

/-- There is one measurement for each pair, and one entry for each measurement, in the same
order. -/
structure Correspond (p : Plan) (pairs : List (CallShape × Nat)) (ms : List Measurement)
    (es : List Entry) : Prop where
  measurements : ms.map (fun m => (m.shape, m.length, m.input)) =
    pairs.map fun pair => (pair.1, pair.2, p.input)
  entries : List.Forall₂ Tells ms es

section
variable {p : Plan} {b : Workbench σ} {h : Host} {log : Emitter}

theorem run_logMeasurement (hb : b.log = some log) (hh : h.log = none) (start : Nat)
    {m : Measurement} (hinput : m.input = p.input) :
    ∃ e log' h', (logMeasurement p start m b).run h = ((.ok (), { b with log := some log' }), h') ∧
      h'.log = none ∧ log.Adds [e] log' ∧ Tells m e := by
  let now := h.serve .wallTime
  let stop := now.2.serve .reading
  let e : Entry :=
    { (beginEntry log now.1.utc .info "measurement" p m.shape m.length).1 with
      latency := some m.latency.mean
      rate := some m.rate
      outcome := some .pass
      duration := some (milliseconds start stop.1)
      bridgeCalls := m.bridgeCalls }
  refine ⟨e, _, stop.2, ?_, hh, Emitter.adds_write rfl, ?_⟩
  · refine (Task.run_bind_ok (Task.run_look hb)).trans ?_
    refine (Task.run_bind_ok (Task.run_ask _)).trans ?_
    refine (Task.run_bind_ok (Task.run_ask _)).trans ?_
    exact Task.run_write (h := stop.2) hh _ e (traceId_ne_empty _ _ _) (Option.some_ne_none _) b
  · exact ⟨rfl, rfl, rfl, rfl, congrArg (some ∘ Arrangement.name) hinput.symm, rfl, rfl, rfl, rfl⟩

theorem run_logFailure (hb : b.log = some log) (hh : h.log = none) (pair : CallShape × Nat)
    (error : RunError) :
    ∃ e log' h', (logFailure p pair.1 pair.2 error b).run h =
        ((.ok (), { b with log := some log' }), h') ∧
      log.Adds [e] log' ∧ TellsFailure p pair error e := by
  let now := h.serve .wallTime
  let e : Entry :=
    { (beginEntry log now.1.utc .error "measurement_failed" p pair.1 pair.2).1 with
      outcome := some .error
      details := some (.object [("error", .str error.message)]) }
  refine ⟨e, _, now.2, ?_, Emitter.adds_write rfl, ⟨rfl, rfl, rfl, rfl, rfl, rfl, rfl⟩⟩
  refine (Task.run_bind_ok (Task.run_look hb)).trans ?_
  refine (Task.run_bind_ok (Task.run_ask _)).trans ?_
  exact Task.run_write (h := now.2) hh _ e (traceId_ne_empty _ _ _) (Option.some_ne_none _) b

end

/-! ### Visits -/

/-- Measuring a pair comes to a result, and so does measuring and logging it. -/
structure Visit (p : Plan) (b : Workbench σ) (h : Host) (pair : CallShape × Nat)
    (result : Except RunError Measurement) (b' : Workbench σ) (h' : Host) : Prop where
  measured : ∃ b₁ h₁, (measure p pair.1 pair.2 b).run (h.serve .reading).2 = ((result, b₁), h₁)
  logged : (measureAndLog p pair.1 pair.2 b).run h = ((result, b'), h')

/-- One pair after the other is visited, each from where the last visit ended. -/
inductive Visits (p : Plan) : Workbench σ → Host → List (CallShape × Nat) → List Measurement →
    Workbench σ → Host → Prop where
  | none (b : Workbench σ) (h : Host) : Visits p b h [] [] b h
  | more {b b₁ b' : Workbench σ} {h h₁ h' : Host} {pair : CallShape × Nat}
      {rest : List (CallShape × Nat)} {m : Measurement} {ms : List Measurement}
      (first : Visit p b h pair (.ok m) b₁ h₁) (others : Visits p b₁ h₁ rest ms b' h') :
      Visits p b h (pair :: rest) (m :: ms) b' h'

/-- How the visits of some pairs come out: the result, the entries that were written, and where it
all ends. After a failure no other pair is visited. A breakdown ends the process, which returns
nothing and writes no line of it. -/
inductive Course (p : Plan) (b : Workbench σ) (h : Host) : List (CallShape × Nat) →
    Except RunError (List Measurement) → List Entry → Workbench σ → Host → Prop where
  | completed {pairs : List (CallShape × Nat)} {ms : List Measurement} {es : List Entry}
      {b' : Workbench σ} {h' : Host} (visits : Visits p b h pairs ms b' h')
      (lines : Correspond p pairs ms es) : Course p b h pairs (.ok ms) es b' h'
  | failed {before : List (CallShape × Nat)} (pair : CallShape × Nat)
      (after : List (CallShape × Nat)) {ms : List Measurement} {es : List Entry}
      {b₁ b' : Workbench σ} {h₁ h' : Host} {error : RunError} {e : Entry}
      (visits : Visits p b h before ms b₁ h₁) (lines : Correspond p before ms es)
      (failure : Visit p b₁ h₁ pair (.error error) b' h') (returns : error.isBreakdown = false)
      (line : TellsFailure p pair error e) :
      Course p b h (before ++ pair :: after) (.error error) (es ++ [e]) b' h'
  | brokeDown {before : List (CallShape × Nat)} (pair : CallShape × Nat)
      (after : List (CallShape × Nat)) {ms : List Measurement} {es : List Entry}
      {b₁ b' : Workbench σ} {h₁ h' : Host} {error : RunError}
      (visits : Visits p b h before ms b₁ h₁) (lines : Correspond p before ms es)
      (failure : Visit p b₁ h₁ pair (.error error) b' h') (breakdown : error.isBreakdown) :
      Course p b h (before ++ pair :: after) (.error error) es b' h'

section
variable {p : Plan} {b b₁ b' : Workbench σ} {h h₁ h' : Host} {pair : CallShape × Nat}
  {rest : List (CallShape × Nat)} {m : Measurement} {e : Entry} {es : List Entry}

theorem Correspond.cons {pairs : List (CallShape × Nat)} {ms : List Measurement}
    (hm : m.shape = pair.1 ∧ m.length = pair.2 ∧ m.input = p.input) (he : Tells m e)
    (h : Correspond p pairs ms es) : Correspond p (pair :: pairs) (m :: ms) (e :: es) := by
  obtain ⟨hshape, hlength, hinput⟩ := hm
  refine ⟨?_, .cons he h.entries⟩
  rw [List.map_cons, List.map_cons, h.measurements, hshape, hlength, hinput]

/-- A visit that succeeds comes before whatever comes of the other pairs. -/
theorem Course.cons {result : Except RunError (List Measurement)}
    (first : Visit p b h pair (.ok m) b₁ h₁)
    (hm : m.shape = pair.1 ∧ m.length = pair.2 ∧ m.input = p.input) (he : Tells m e)
    (others : Course p b₁ h₁ rest result es b' h') :
    Course p b h (pair :: rest) (result.map (m :: ·)) (e :: es) b' h' := by
  cases others with
  | completed visits lines => exact .completed (.more first visits) (lines.cons hm he)
  | failed pair after visits lines failure returns line =>
    exact .failed pair after (.more first visits) (lines.cons hm he) failure returns line
  | brokeDown pair after visits lines failure breakdown =>
    exact .brokeDown pair after (.more first visits) (lines.cons hm he) failure breakdown

/-- A visit succeeds with a line, fails with a line, or breaks down without one. -/
theorem exists_visit {log : Emitter} (hb : b.log = some log) (hh : h.log = none)
    (pair : CallShape × Nat) :
    (∃ m e log' b' h', Visit p b h pair (.ok m) b' h' ∧ b'.log = some log' ∧ h'.log = none ∧
      log.Adds [e] log' ∧ (m.shape = pair.1 ∧ m.length = pair.2 ∧ m.input = p.input) ∧
        Tells m e) ∨
    (∃ error e log' b' h', Visit p b h pair (.error error) b' h' ∧ b'.log = some log' ∧
      log.Adds [e] log' ∧ error.isBreakdown = false ∧ TellsFailure p pair error e) ∨
    ∃ error b' h', Visit p b h pair (.error error) b' h' ∧ b'.log = some log ∧
      error.isBreakdown := by
  obtain ⟨result, b₁, h₁, hmeasure, -, hlog₁, hkept₁, hm⟩ :=
    quiet_measure p pair.1 pair.2 b (h.serve .reading).2
  obtain ⟨b₂, h₂, hannounce, hkept₂, hlog₂⟩ := Task.run_announce b₁ h₁
  have hb₂ : b₂.log = some log := by rw [hkept₂, hkept₁, hb]
  have hh₂ : h₂.log = none := by
    rw [hlog₂, hlog₁]
    exact hh
  cases result with
  | ok m =>
    have hpair := hm m rfl
    obtain ⟨e, log', h₃, hline, hh₃, hadds, htells⟩ :=
      run_logMeasurement hb₂ hh₂ (h.serve .reading).1 hpair.2.2
    refine .inl ⟨m, e, log', { b₂ with log := some log' }, h₃, ⟨⟨b₁, h₁, hmeasure⟩, ?_⟩, rfl, hh₃,
      hadds, hpair, htells⟩
    refine (Task.run_bind_ok (Task.run_ask _)).trans ?_
    refine (Task.run_bind_ok (Task.run_attempt hmeasure)).trans ?_
    refine (Task.run_bind_ok hannounce).trans ?_
    exact (Task.run_bind_ok hline).trans rfl
  | error error =>
    cases hbreakdown : error.isBreakdown with
    | false =>
      obtain ⟨e, log', h₃, hline, hadds, htells⟩ := run_logFailure hb₂ hh₂ pair error
      refine .inr (.inl ⟨error, e, log', { b₂ with log := some log' }, h₃,
        ⟨⟨b₁, h₁, hmeasure⟩, ?_⟩, rfl, hadds, hbreakdown, htells⟩)
      refine (Task.run_bind_ok (Task.run_ask _)).trans ?_
      refine (Task.run_bind_ok (Task.run_attempt hmeasure)).trans ?_
      refine (Task.run_bind_ok hannounce).trans ?_
      simp only [hbreakdown]
      exact (Task.run_bind_ok hline).trans rfl
    | true =>
      refine .inr (.inr ⟨error, b₂, h₂, ⟨⟨b₁, h₁, hmeasure⟩, ?_⟩, hb₂, hbreakdown⟩)
      refine (Task.run_bind_ok (Task.run_ask _)).trans ?_
      refine (Task.run_bind_ok (Task.run_attempt hmeasure)).trans ?_
      refine (Task.run_bind_ok hannounce).trans ?_
      simp only [hbreakdown]
      rfl

/-! ### Runs -/

theorem exists_course {log : Emitter} (hb : b.log = some log) (hh : h.log = none)
    (pairs : List (CallShape × Nat)) (made : List Measurement) :
    ∃ result es log' b' h', (measureAll p pairs made b).run h =
        ((result.map (made.reverse ++ ·), b'), h') ∧
      Course p b h pairs result es b' h' ∧ b'.log = some log' ∧ log.Adds es log' := by
  induction pairs generalizing b h log made with
  | nil =>
    refine ⟨.ok [], [], log, b, h, ?_, .completed (.none b h) ⟨rfl, .nil⟩, hb, .nil log⟩
    simp [measureAll, Except.map]
    rfl
  | cons pair rest ih =>
    rcases exists_visit (p := p) hb hh pair with
      ⟨m, e, log₁, b₁, h₁, hvisit, hb₁, hh₁, hadds, hm, htells⟩ |
      ⟨error, e, log₁, b₁, h₁, hvisit, hb₁, hadds, hreturns, htells⟩ |
      ⟨error, b₁, h₁, hvisit, hb₁, hbreakdown⟩
    · obtain ⟨result, es, log', b', h', hrun, hcourse, hb', hadds'⟩ := ih hb₁ hh₁ (m :: made)
      refine ⟨_, _, log', b', h', ?_, hcourse.cons hvisit hm htells, hb', hadds.append hadds'⟩
      refine (Task.run_bind_ok hvisit.logged).trans (hrun.trans ?_)
      cases result <;> simp [Except.map]
    · refine ⟨.error error, _, log₁, b₁, h₁, Task.run_bind_error hvisit.logged, ?_, hb₁, hadds⟩
      exact .failed pair rest (.none b h) ⟨rfl, .nil⟩ hvisit hreturns htells
    · refine ⟨.error error, _, log, b₁, h₁, Task.run_bind_error hvisit.logged, ?_, hb₁, .nil log⟩
      exact .brokeDown pair rest (.none b h) ⟨rfl, .nil⟩ hvisit hbreakdown

/-- The pairs of a plan are those of its shapes, each with its lengths; only two shapes do not
depend on a length. -/
theorem pairs_eq (p : Plan) :
    p.pairs = p.shapes.flatMap fun shape =>
      if shape = .noop ∨ shape = .sysinfo then [(shape, 0)]
      else p.lengths.map fun n => (shape, n) := by
  unfold Plan.pairs
  refine List.flatMap_congr fun shape _ => ?_
  cases shape <;> rfl

/-- Whatever the plan, the workbench and its faults, and the host: with a log in memory the lines
that a run adds to it are numbered without a gap, and the run is refused with nothing done if the
plan selects nothing; otherwise the pairs are visited in the order of the shapes and of the lengths,
up to the first failure. -/
theorem run_logged (p : Plan) (workbench : Workbench σ) (log : Emitter) (host : Host) :
    let b := { workbench with log := some log }
    let h := { host with log := none }
    ∃ result es log' b' h', (Bench.run p b).run h = ((result, b'), h') ∧
      b'.log = some log' ∧ log.Adds es log' ∧
      if p.shapes = [] ∨ p.lengths = [] then
        result = .error (.invalidArgument "nothing to measure") ∧ es = [] ∧ b' = b ∧ h' = h
      else
        let pairs := p.shapes.flatMap fun shape =>
          if shape = .noop ∨ shape = .sysinfo then [(shape, 0)]
          else p.lengths.map fun n => (shape, n)
        Course p b h pairs result es b' h' := by
  intro b h
  by_cases hempty : p.shapes = [] ∨ p.lengths = []
  · refine ⟨.error (.invalidArgument "nothing to measure"), [], log, b, h, ?_, rfl, .nil log, ?_⟩
    · rw [Bench.run, if_pos (by simpa using hempty)]
      rfl
    · rw [if_pos hempty]
      exact ⟨rfl, rfl, rfl, rfl⟩
  · obtain ⟨result, es, log', b', h', hrun, hcourse, hlog, hadds⟩ :=
      exists_course (p := p) (b := b) (h := h) rfl rfl p.pairs []
    refine ⟨result, es, log', b', h', ?_, hlog, hadds, ?_⟩
    · rw [Bench.run, if_neg (by simpa using hempty), hrun]
      cases result <;> simp [Except.map]
    · rw [if_neg hempty, ← pairs_eq]
      exact hcourse

end
end Bench
end CallBridge
