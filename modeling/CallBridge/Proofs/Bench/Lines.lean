import CallBridge.Bench.Run
import CallBridge.Proofs.Host.LogFile
import CallBridge.Proofs.Log.Written

/-!
# The lines of a benchmark

What a benchmark writes to its log, whether it succeeds or fails, on any host that takes the lines:
only lawful entries (`Task.Writes`), and if it succeeds one for each pair of its plan, in their order
(`writes_run`). Measuring itself writes nothing (`quiet_measure`).
-/

namespace CallBridge

/-- After some lines the host refuses one. -/
def Host.Refuses (h : Host) : Prop :=
  ∃ ls h₁ l e, h.Takes ls h₁ ∧ (h₁.appendLog l).1 = .error e

theorem Host.Takes.refuses {h h₁ : Host} {ls : List String} (ht : h.Takes ls h₁)
    (hrefuses : h₁.Refuses) : h.Refuses := by
  obtain ⟨ls', h₂, l, e, ht', hrefused⟩ := hrefuses
  exact ⟨ls ++ ls', h₂, l, e, ht.trans ht', hrefused⟩

/-- A log that is a file refuses no line. -/
theorem Host.Logs.not_refuses {h : Host} {folders : List Files.Place} {name : String}
    {ls : List String} (hh : h.Logs folders name ls) : ¬ h.Refuses := by
  rintro ⟨ls', h₁, l, e, ht, hrefused⟩
  obtain ⟨h₂, happend, -⟩ := (hh.takes ht).appendLog l
  rw [happend] at hrefused
  cases hrefused

namespace Bench
open Log Managed

variable {σ α β : Type}

namespace Task

/-! ### Tasks that write nothing -/

/-- The task touches neither the files nor the log, and what it comes to, if it does not fail, has a
property. -/
def Quiet (x : Task σ α) (P : α → Prop) : Prop :=
  ∀ b h, ∃ r b' h', (x b).run h = ((r, b'), h') ∧ h'.files = h.files ∧ h'.log = h.log ∧
    b'.log = b.log ∧ ∀ a, r = .ok a → P a

section
variable {P : α → Prop} {Q : β → Prop} {x : Task σ α}

theorem quiet_pure {a : α} (ha : P a) : Quiet (pure a : Task σ α) P := by
  intro b h
  refine ⟨.ok a, b, h, rfl, rfl, rfl, rfl, ?_⟩
  rintro _ ⟨⟩
  exact ha

theorem quiet_fail (e : RunError) : Quiet (fail e : Task σ α) P :=
  fun b h => ⟨.error e, b, h, rfl, rfl, rfl, rfl, nofun⟩

theorem Quiet.bind {f : α → Task σ β} (hx : Quiet x P) (hf : ∀ a, P a → Quiet (f a) Q) :
    Quiet (x >>= f) Q := by
  intro b h
  obtain ⟨r, b₁, h₁, hrun, hfiles, hlog, hkept, hr⟩ := hx b h
  cases r with
  | error e => exact ⟨.error e, b₁, h₁, run_bind_error hrun, hfiles, hlog, hkept, nofun⟩
  | ok a =>
    obtain ⟨r', b₂, h₂, hrun', hfiles', hlog', hkept', hr'⟩ := hf a (hr a rfl) b₁ h₁
    exact ⟨r', b₂, h₂, (run_bind_ok hrun).trans hrun', hfiles'.trans hfiles, hlog'.trans hlog,
      hkept'.trans hkept, hr'⟩

theorem quiet_look (f : Workbench σ → α) : Quiet (look f) fun _ => True :=
  fun b h => ⟨.ok (f b), b, h, rfl, rfl, rfl, rfl, fun _ _ => trivial⟩

theorem quiet_change {f : Workbench σ → Workbench σ} (hf : ∀ b, (f b).log = b.log) :
    Quiet (change f) fun _ => True :=
  fun b h => ⟨.ok (), f b, h, rfl, rfl, rfl, hf b, fun _ _ => trivial⟩

theorem quiet_ask {r : Request α}
    (hr : ∀ h : Host, (h.serve r).2.files = h.files ∧ (h.serve r).2.log = h.log) :
    Quiet (ask r : Task σ α) fun _ => True :=
  fun b h => ⟨_, b, _, rfl, (hr h).1, (hr h).2, rfl, fun _ _ => trivial⟩

theorem quiet_reading : Quiet (ask .reading : Task σ Nat) fun _ => True :=
  quiet_ask fun _ => ⟨rfl, rfl⟩

theorem quiet_wallTime : Quiet (ask .wallTime : Task σ WallTime) fun _ => True :=
  quiet_ask fun _ => ⟨rfl, rfl⟩

theorem quiet_reserve (bytes : Nat) : Quiet (reserve bytes : Task σ Unit) fun _ => True := by
  refine (quiet_ask fun _ => ⟨rfl, rfl⟩).bind ?_
  rintro (e | ⟨⟩) -
  · exact quiet_fail _
  · exact quiet_pure trivial

theorem quiet_report (notices : List Diagnostic.Notice) :
    Quiet (report notices : Task σ Unit) fun _ => True := by
  induction notices with
  | nil => exact quiet_pure trivial
  | cons n rest ih =>
    exact quiet_wallTime.bind fun _ _ => (quiet_ask fun _ => ⟨rfl, rfl⟩).bind fun _ _ => ih

theorem quiet_announce : Quiet (announce : Task σ Unit) fun _ => True := by
  refine (quiet_look _).bind fun notices _ => ?_
  refine (quiet_change ?_).bind fun _ _ => quiet_report notices
  exact fun _ => rfl

theorem quiet_act (x : Act σ α) : Quiet (act x) fun _ => True := by
  intro b h
  unfold act Workbench.act
  rcases x b.world with ⟨e | a, w⟩
  · exact ⟨.error (.bridge e), { b with world := w }, h, rfl, rfl, rfl, rfl, nofun⟩
  · exact ⟨.ok a, { b with world := w }, h, rfl, rfl, rfl, rfl, fun _ _ => trivial⟩

theorem Quiet.attempt (hx : Quiet x P) : Quiet x.attempt fun r => ∀ a, r = .ok a → P a := by
  intro b h
  obtain ⟨r, b', h', hrun, hfiles, hlog, hkept, hr⟩ := hx b h
  refine ⟨.ok r, b', h', run_attempt hrun, hfiles, hlog, hkept, ?_⟩
  rintro _ ⟨⟩
  exact hr

end
end Task

open CallBridge.Bench.Task

/-! ### Measuring is quiet -/

namespace Trial
variable (t : Trial)

theorem log_call (b : Workbench σ) : (t.call b).2.2.log = b.log := by
  unfold call
  split <;> rfl

theorem log_repeatCall (n : Nat) (b : Workbench σ) : (repeatCall n t b).2.2.log = b.log := by
  induction n generalizing t b with
  | zero => rfl
  | succ n ih =>
    have hcall := t.log_call b
    unfold repeatCall
    rcases hreply : t.call b with ⟨e | reply, t', b'⟩
    · rwa [hreply] at hcall
    · rw [hreply] at hcall
      exact (ih t' b').trans hcall

theorem quiet_calls (n : Nat) : Quiet (t.calls n : Task σ Trial) fun _ => True := by
  intro b h
  have hlog := t.log_repeatCall n b
  unfold calls
  rcases hcalls : repeatCall n t b with ⟨e | ⟨⟩, t', b'⟩ <;> rw [hcalls] at hlog
  · exact ⟨.error (.bridge e), b', h, rfl, rfl, rfl, hlog, nofun⟩
  · exact ⟨.ok t', b', h, rfl, rfl, rfl, hlog, fun _ _ => trivial⟩

theorem quiet_prepare (shape : CallShape) (length : Nat) (arrangement : Arrangement)
    (seed : UInt64) :
    Quiet (prepare shape length arrangement seed : Task σ Trial) fun _ => True := by
  refine (quiet_act _).bind fun context _ => ?_
  refine (quiet_act _).bind fun comparator _ => ?_
  refine (quiet_look _).bind fun pattern _ => ?_
  refine (quiet_change ?_).bind fun _ _ => ?_
  · exact fun _ => rfl
  · split
    · exact quiet_fail _
    · exact quiet_pure trivial

end Trial

theorem quiet_countCalls (t : Trial) :
    Quiet (countCalls t : Task σ (Option Binary64 × Trial)) fun _ => True := by
  unfold countCalls
  split
  · refine (quiet_look _).bind fun before _ => ?_
    refine (t.quiet_calls 1).bind fun t _ => ?_
    exact (quiet_look _).bind fun after _ => quiet_pure trivial
  · exact quiet_pure trivial

theorem quiet_takeSamples (calls n : Nat) (t : Trial) (taken : List Binary64) :
    Quiet (takeSamples calls n t taken : Task σ (List Binary64)) fun _ => True := by
  induction n generalizing t taken with
  | zero => exact quiet_pure trivial
  | succ n ih =>
    refine quiet_reading.bind fun start _ => ?_
    refine (t.quiet_calls calls).bind fun t _ => ?_
    exact quiet_reading.bind fun stop _ => ih t _

theorem quiet_measure (p : Plan) (shape : CallShape) (length : Nat) :
    Quiet (measure p shape length : Task σ Measurement) fun m =>
      m.shape = shape ∧ m.length = length ∧ m.input = p.input := by
  unfold measure
  split
  · exact quiet_fail _
  · refine (Trial.quiet_prepare shape length p.input p.seed).bind fun t _ => ?_
    refine (t.quiet_calls _).bind fun t _ => ?_
    refine (quiet_countCalls t).bind fun counted _ => ?_
    refine (quiet_reserve _).bind fun _ _ => ?_
    exact (quiet_takeSamples _ _ _ _).bind fun samples _ => quiet_pure ⟨rfl, rfl, rfl⟩

/-! ### Tasks that write -/

/-- The name of the run a workbench keeps a log of, if it keeps one. -/
def Workbench.runId? (b : Workbench σ) : Option String := b.log.map (·.runId)

/-- The name of a run, if there is one, leaves trace ids their three parts. -/
def ArePlain (run : Option String) : Prop := ∀ runId, run = some runId → IsPlain runId

namespace Task

/-- At a workbench that keeps the log of a run the host takes the lines of some entries while the
task is done, or it refuses a line and the task fails. The entries are lawful if the name of the run
admits it, and if the task succeeds `P` holds of its result and of them. -/
def Writes (run : Option String) (x : Task σ α) (P : α → List Entry → Prop) : Prop :=
  ∀ b h, b.runId? = run → ∃ r b' h', (x b).run h = ((r, b'), h') ∧
    ((∃ added, h.Takes (added.map (·.line)) h' ∧ b'.runId? = run ∧
        (ArePlain run → ∀ e ∈ added, e.Lawful) ∧ ∀ a, r = .ok a → P a added) ∨
      (∃ e, r = .error e) ∧ h.Refuses)

section
variable {run : Option String} {x : Task σ α} {P P' : α → List Entry → Prop}
  {Q : β → List Entry → Prop}

theorem Quiet.writes {P : α → Prop} (hx : Quiet x P) :
    Writes run x fun a added => added = [] ∧ P a := by
  intro b h hb
  obtain ⟨r, b', h', hrun, hfiles, hlog, hkept, hr⟩ := hx b h
  refine ⟨r, b', h', hrun, .inl ⟨[], .quiet hfiles hlog, ?_, fun _ => List.forall_mem_nil _,
    fun a ha => ⟨rfl, hr a ha⟩⟩⟩
  rw [← hb, Workbench.runId?, hkept, Workbench.runId?]

theorem Writes.mono (hx : Writes run x P) (h : ∀ a added, P a added → P' a added) :
    Writes run x P' := by
  intro b host hb
  obtain ⟨r, b', host', hrun, hr⟩ := hx b host hb
  refine ⟨r, b', host', hrun, hr.imp_left ?_⟩
  rintro ⟨added, ht, hsame, hlawful, hP⟩
  exact ⟨added, ht, hsame, hlawful, fun a ha => h a added (hP a ha)⟩

theorem writes_pure {a : α} (ha : P a []) : Writes run (pure a : Task σ α) P :=
  (quiet_pure (P := (· = a)) rfl).writes.mono fun _ _ ⟨hadded, hc⟩ => hadded ▸ hc ▸ ha

theorem writes_fail (e : RunError) : Writes run (fail e : Task σ α) P :=
  (quiet_fail (P := fun _ => False) e).writes.mono fun _ _ h => h.2.elim

theorem Writes.bind {f : α → Task σ β} (hx : Writes run x P)
    (hf : ∀ a added, P a added → Writes run (f a) fun c added' => Q c (added ++ added')) :
    Writes run (x >>= f) Q := by
  intro b h hb
  obtain ⟨r, b₁, h₁, hrun, hr⟩ := hx b h hb
  cases r with
  | error e =>
    refine ⟨.error e, b₁, h₁, run_bind_error hrun, ?_⟩
    rcases hr with ⟨added, ht, hsame, hlawful, -⟩ | ⟨-, hrefuses⟩
    · exact .inl ⟨added, ht, hsame, hlawful, nofun⟩
    · exact .inr ⟨⟨e, rfl⟩, hrefuses⟩
  | ok a =>
    obtain ⟨added, ht, hsame, hlawful, hP⟩ := hr.resolve_right fun h => nomatch h.1
    obtain ⟨r', b₂, h₂, hrun', hr'⟩ := hf a added (hP a rfl) b₁ h₁ hsame
    refine ⟨r', b₂, h₂, (run_bind_ok hrun).trans hrun', ?_⟩
    rcases hr' with ⟨added', ht', hsame', hlawful', hQ⟩ | ⟨herror, hrefuses⟩
    · refine .inl ⟨added ++ added', ?_, hsame', fun hplain => ?_, hQ⟩
      · rw [List.map_append]
        exact ht.trans ht'
      · exact List.forall_mem_append.2 ⟨hlawful hplain, hlawful' hplain⟩
    · exact .inr ⟨herror, ht.refuses hrefuses⟩

/-- What is quiet makes no difference to what is written later. -/
theorem Quiet.bind_writes {P : α → Prop} {f : α → Task σ β} (hx : Quiet x P)
    (hf : ∀ a, P a → Writes run (f a) Q) : Writes run (x >>= f) Q := by
  refine hx.writes.bind ?_
  rintro a _ ⟨rfl, ha⟩
  exact hf a ha

theorem writes_log :
    Writes run (look fun b : Workbench σ => b.log) fun log added =>
      added = [] ∧ log.map (·.runId) = run := by
  intro b h hb
  refine ⟨.ok b.log, b, h, rfl, .inl ⟨[], .refl h, hb, fun _ => List.forall_mem_nil _, ?_⟩⟩
  rintro _ ⟨⟩
  exact ⟨rfl, hb⟩

/-- An entry that was begun is written as it is. -/
theorem writes_write {log : Emitter} {e : Entry} (hrun : run = some log.runId)
    (hid : e.traceId ≠ "") (hkind : e.runKind ≠ none)
    (hlawful : IsPlain log.runId → e.Lawful) {P : Unit → List Entry → Prop} (he : P () [e]) :
    Writes run (write log e : Task σ Unit) P := by
  intro b h hb
  -- Whether the task goes on depends on what the host answers to its last request.
  have hask : ∀ next : Except FileError Unit → Program (Except RunError Unit × Workbench σ),
      (Program.ask (.appendLog e.line) next).run h =
        (next (h.appendLog e.line).1).run (h.appendLog e.line).2 := fun _ => rfl
  unfold write
  rw [log.complete_of_begun hid hkind]
  rcases happend : h.appendLog e.line with ⟨error | ⟨⟩, h'⟩
  · refine ⟨.error (.file error), { b with log := some (log.write e) }, h', ?_,
      .inr ⟨⟨_, rfl⟩, [], h, e.line, error, .refl h, by rw [happend]⟩⟩
    refine (hask _).trans ?_
    rw [happend]
    rfl
  · refine ⟨.ok (), { b with log := some (log.write e) }, h', ?_,
      .inl ⟨[e], .line happend, ?_, ?_, ?_⟩⟩
    · refine (hask _).trans ?_
      rw [happend]
      rfl
    · exact hrun.symm
    · intro hplain
      exact List.forall_mem_singleton.2 (hlawful (hplain _ hrun))
    · exact fun _ _ => he

end
end Task

/-! ### The entries of a benchmark -/

/-- What an entry tells of: its event, with the shape and the length where it has them. -/
def subject (e : Entry) : String × Option CallShape × Option Nat := (e.event, e.shape, e.length)

/-- What the entry of a pair's measurement tells of. -/
def measured (pair : CallShape × Nat) : String × Option CallShape × Option Nat :=
  (Validation.measurementEvent, some pair.1, some pair.2)

section
variable {run : Option String} {p : Plan} {shape : CallShape} {length : Nat}

/-- An entry of a pair is lawful once it says how that went. -/
theorem lawful_of_begun {e : Entry} {kind : RunKind} {runId : String} {number : Nat}
    (hplain : IsPlain runId) (hid : e.traceId = traceId kind runId number)
    (hlength : e.length = some length)
    (hlimit : length < lengthLimit) (hinput : e.input = some p.input.name)
    (hshape : e.shape = some shape) (hevent : e.event ≠ Validation.propertyEvent)
    (hcode : e.exitCode = none) (hduration : ∀ n, e.duration = some n → n < lengthLimit)
    (hdetails : e.FlatDetails) : e.Lawful where
  range := by
    refine ⟨?_, by simp [hcode], hduration⟩
    rintro n hn
    obtain rfl := Option.some.inj (hlength.symm.trans hn)
    exact hlimit
  traceId := hid ▸ (Validation.parts_traceId_iff ..).2 hplain
  input := by
    rintro i hi
    obtain rfl := Option.some.inj (hinput.symm.trans hi)
    cases p.input <;> decide
  shape := fun _ => by simp [hshape]
  property := fun h => absurd h hevent
  details := hdetails

theorem writes_logMeasurement (start : Nat) {m : Measurement} (hlimit : m.length < lengthLimit) :
    Writes run (logMeasurement p start m : Task σ Unit) fun _ added =>
      run.isSome → added.map subject = [measured (m.shape, m.length)] := by
  refine writes_log.bind ?_
  rintro log _ ⟨rfl, hrun⟩
  cases log with
  | none => exact writes_pure fun hsome => by simp [← hrun] at hsome
  | some log =>
    refine quiet_wallTime.bind_writes fun now _ => ?_
    refine quiet_reading.bind_writes fun stop _ => ?_
    simp only [beginEntry, Emitter.entry, Emitter.nextTraceId]
    refine writes_write ?_ ?_ ?_ ?_ ?_
    · exact hrun.symm
    · exact traceId_ne_empty _ _ _
    · exact Option.some_ne_none _
    · intro hplain
      have hevent : "measurement" ≠ Validation.propertyEvent := by decide
      have hduration : milliseconds start stop < lengthLimit := Nat.mod_lt _ (by decide)
      refine lawful_of_begun (p := p) hplain rfl rfl hlimit rfl rfl hevent rfl ?_ ?_
      · intro n hn
        obtain rfl := Option.some.inj hn
        exact hduration
      · rintro _ ⟨⟩
    · exact fun _ => rfl

theorem writes_logFailure (e : RunError) (hlimit : length < lengthLimit) :
    Writes run (logFailure p shape length e : Task σ Unit) fun _ _ => True := by
  refine writes_log.bind ?_
  rintro log _ ⟨rfl, hrun⟩
  cases log with
  | none => exact writes_pure trivial
  | some log =>
    refine quiet_wallTime.bind_writes fun now _ => ?_
    simp only [beginEntry, Emitter.entry, Emitter.nextTraceId]
    refine writes_write ?_ ?_ ?_ ?_ trivial
    · exact hrun.symm
    · exact traceId_ne_empty _ _ _
    · exact Option.some_ne_none _
    · intro hplain
      have hevent : "measurement_failed" ≠ Validation.propertyEvent := by decide
      refine lawful_of_begun (p := p) hplain rfl rfl hlimit rfl rfl hevent rfl ?_ ?_
      · rintro _ ⟨⟩
      · rintro _ ⟨⟩
        exact ⟨_, rfl, List.pairwise_singleton .., List.forall_mem_singleton.2 ⟨_, rfl⟩⟩

/-- A measurement has its line, one that fails at most that of its failure. -/
theorem writes_measureAndLog (hlimit : length < lengthLimit) :
    Writes run (measureAndLog p shape length : Task σ Measurement) fun _ added =>
      run.isSome → added.map subject = [measured (shape, length)] := by
  refine quiet_reading.bind_writes fun start _ => ?_
  refine (quiet_measure p shape length).attempt.bind_writes fun result hresult => ?_
  refine quiet_announce.bind_writes fun _ _ => ?_
  cases result with
  | ok m =>
    obtain ⟨rfl, rfl, -⟩ := hresult m rfl
    refine (writes_logMeasurement start hlimit).bind fun _ added hadded => ?_
    refine writes_pure ?_
    rwa [List.append_nil]
  | error e =>
    dsimp only
    split
    · exact (writes_logFailure e hlimit).bind fun _ _ _ => writes_fail e
    · exact writes_fail e

theorem writes_measureAll {pairs : List (CallShape × Nat)}
    (hlimit : ∀ pair ∈ pairs, pair.2 < lengthLimit) (made : List Measurement) :
    Writes run (measureAll p pairs made : Task σ (List Measurement)) fun _ added =>
      run.isSome → added.map subject = pairs.map measured := by
  induction pairs generalizing made with
  | nil => exact writes_pure fun _ => rfl
  | cons pair rest ih =>
    obtain ⟨hfirst, hrest⟩ := List.forall_mem_cons.1 hlimit
    refine (writes_measureAndLog hfirst).bind fun m added hadded => ?_
    refine (ih hrest (m :: made)).mono fun _ added' hadded' hsome => ?_
    rw [List.map_append, hadded hsome, hadded' hsome]
    rfl

/-- A plan that is carried out has a line for each of its pairs, in their order. -/
theorem writes_run (hlimit : ∀ n ∈ p.lengths, n < lengthLimit) :
    Writes run (Bench.run p : Task σ (List Measurement)) fun _ added =>
      run.isSome → added.map subject = p.pairs.map measured := by
  unfold Bench.run
  split
  · exact writes_fail _
  · refine writes_measureAll ?_ []
    rintro pair hpair
    obtain ⟨shape, -, hpair⟩ := List.mem_flatMap.1 hpair
    obtain ⟨n, hn, rfl⟩ := List.mem_map.1 hpair
    unfold Plan.lengthsFor at hn
    split at hn
    · exact hlimit n hn
    · obtain rfl := List.mem_singleton.1 hn
      exact Nat.two_pow_pos 64

end

end Bench
end CallBridge
