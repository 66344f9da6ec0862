import CallBridge.Check.Property
import CallBridge.Proofs.CommandLine.Logging

/-!
# The log a command leaves

A verification writes its log in one go, before its report, so the log is closed whatever comes
after (`leads_verify`); a benchmark may be stopped while its log stands open, and the log is closed
when the process ends, unless memory was refused (`Logging.conclude`). In each case what is left holds
the lines of lawful entries, and these are what the validation reads back (`log_left`).
-/

namespace CallBridge

/-! ### Verdicts -/

namespace Check

/-- A property has a name that is more than blanks. -/
theorem isFilled_of_mem_all : ∀ p ∈ Property.all, Log.Validation.isFilled p.name := by decide

theorem isFilled_of_mem_verdicts {ps : List Property} {seed : UInt64}
    (hps : ∀ p ∈ ps, p ∈ Property.all) :
    ∀ v ∈ (verify ps seed).1.verdicts, Log.Validation.isFilled v.property := by
  intro v hv
  obtain ⟨r, hr, rfl⟩ := List.mem_map.1 hv
  obtain ⟨p, hp, rfl⟩ := List.mem_map.1 hr
  have hname : (Verdict.ofCheck p.name (p.check seed).1).property = p.name := by
    cases (p.check seed).1 <;> rfl
  show Log.Validation.isFilled (Verdict.ofCheck p.name (p.check seed).1).property
  rw [hname]
  exact isFilled_of_mem_all p (hps p hp)

end Check

namespace CommandLine
open Bench Diagnostic Log CallBridge.CommandLine.Step

/-- The verdicts that a verification is to come to, with the diagnostics. -/
def VerifyOptions.checked (o : VerifyOptions) (seed : UInt64) :
    Except RunError (Check.Summary × List Notice) :=
  match o.property with
  | some name => Check.verifyOne name seed
  | none => .ok (Check.verifyAll seed)

theorem seed_of_ok {s : String} {n : UInt64} (h : readSeed s = .ok n) :
    CommandLine.seed s = pure n := by
  rw [CommandLine.seed, h]

theorem seed_of_error {s : String} {e : Text.NumberError} (h : readSeed s = .error e) :
    CommandLine.seed s = throw (.number e) := by
  rw [CommandLine.seed, h]

theorem isFilled_of_checked {o : VerifyOptions} {seed : UInt64} {summary : Check.Summary}
    {notices : List Notice} (h : o.checked seed = .ok (summary, notices)) :
    ∀ v ∈ summary.verdicts, Validation.isFilled v.property := by
  unfold VerifyOptions.checked at h
  split at h
  · unfold Check.verifyOne Check.Property.find at h
    split at h
    · rename_i p hp
      cases h
      refine Check.isFilled_of_mem_verdicts ?_
      rintro q hq
      rw [List.mem_singleton.1 hq]
      exact List.mem_of_find?_eq_some hp
    · cases h
  · cases h
    exact Check.isFilled_of_mem_verdicts fun _ hp => hp

/-- What an entry says of a property: its event, the property's name, and the outcome. -/
def judged (e : Entry) : String × Option String × Option Outcome := (e.event, e.property, e.outcome)

/-- What the entry of a verdict says. -/
def judgement (v : Check.Verdict) : String × Option String × Option Outcome :=
  (Validation.propertyEvent, some v.property, some (if v.passed then .pass else .fail))

section
variable {folders : List Files.Place} {name path : String} {es : List Entry} {h : Host}
  {failed : Host → Prop} {o : VerifyOptions}

/-- The log is closed and says of each verdict what came of its property. -/
def Judged (folders : List Files.Place) (name : String) (vs : List Check.Verdict) (h : Host) :
    Prop :=
  ∃ es, Logged folders name es h ∧ es.map judged = vs.map judgement

theorem Judged.of_same {vs : List Check.Verdict} {h' : Host} (hh : Judged folders name vs h)
    (hfiles : h'.files = h.files) (hlog : h'.log = h.log) : Judged folders name vs h' :=
  hh.imp fun _ hes => ⟨hes.1.of_same hfiles hlog, hes.2⟩

theorem Logging.leads_logVerdict (hh : Logging folders name es h) {log : Emitter}
    (hplain : IsPlain log.runId) {v : Check.Verdict} (hfilled : Validation.isFilled v.property) :
    Leads failed (logVerdict log v) h fun log' h' => log'.runId = log.runId ∧
      ∃ e, Logging folders name (es ++ [e]) h' ∧ judged e = judgement v := by
  have hevent : "property_checked" ≠ Validation.measurementEvent := by decide
  unfold logVerdict
  refine (leads_wallTime (P := fun _ => Logging folders name es) fun _ _ => hh.of_same).bind
    fun now h₁ hh₁ => ?_
  simp only [Emitter.entry, Emitter.nextTraceId]
  refine (hh₁.leads_writeEntry ?_ ?_).mono ?_
  · exact {
      range := ⟨by rintro _ ⟨⟩, by rintro _ ⟨⟩, by rintro _ ⟨⟩⟩
      traceId := (Validation.parts_traceId_iff ..).2 hplain
      input := by rintro _ ⟨⟩
      shape := fun h => absurd h hevent
      property := fun _ => ⟨v.property, rfl, hfilled⟩
      details := by
        rintro _ ⟨⟩
        exact ⟨_, rfl, List.pairwise_singleton .., List.forall_mem_singleton.2 ⟨_, rfl⟩⟩ }
  · exact Option.some_ne_none _
  · rintro log' h' ⟨rfl, hh'⟩
    exact ⟨rfl, _, hh', rfl⟩

theorem Logging.leads_verdicts (hh : Logging folders name es h) {log : Emitter}
    (hplain : IsPlain log.runId) {vs : List Check.Verdict}
    (hfilled : ∀ v ∈ vs, Validation.isFilled v.property) :
    Leads failed (vs.foldlM logVerdict log) h fun _ h' =>
      ∃ added, Logging folders name (es ++ added) h' ∧ added.map judged = vs.map judgement := by
  induction vs generalizing es h log with
  | nil => exact leads_pure ⟨[], by rwa [List.append_nil], rfl⟩
  | cons v vs ih =>
    obtain ⟨hfirst, hrest⟩ := List.forall_mem_cons.1 hfilled
    rw [List.foldlM_cons]
    refine (hh.leads_logVerdict hplain hfirst).bind ?_
    rintro log' h₁ ⟨hsame, e, hh₁, he⟩
    refine (ih hh₁ (hsame ▸ hplain) hrest).mono ?_
    rintro _ h' ⟨added, hh', hadded⟩
    refine ⟨e :: added, ?_, by rw [List.map_cons, List.map_cons, he, hadded]⟩
    rwa [List.append_cons]

theorem leads_logVerdicts {settings : Settings} (hid : ∀ c ∈ settings.processId.toList, c.isDigit)
    (hopened : h.files.opened = Files.standardTargets)
    (hpath : h.files.resolve .new path = .ok (.file name)) {vs : List Check.Verdict}
    (hfilled : ∀ v ∈ vs, Validation.isFilled v.property) :
    Leads failed (logVerdicts settings path vs) h fun _ => Judged h.files.folders name vs := by
  refine (leads_nameRun settings hid).bind ?_
  rintro runId h₀ ⟨hplain, hsame, -⟩
  rw [← hsame] at hopened hpath ⊢
  refine (leads_openLog hopened hpath).bind fun _ h₁ hh₁ => ?_
  refine (hh₁.leads_verdicts hplain hfilled).bind ?_
  rintro _ h₂ ⟨added, hh₂, hadded⟩
  exact (leads_closeLog hh₂).mono fun _ h' hh' => ⟨_, hh', hadded⟩

/-- A verification whose arguments can be read leaves its log closed, whatever the verdicts are and
whatever comes of its report. -/
theorem leads_verify {settings : Settings} {seed : UInt64} {summary : Check.Summary}
    {notices : List Notice} (hid : ∀ c ∈ settings.processId.toList, c.isDigit)
    (hopened : h.files.opened = Files.standardTargets)
    (hpath : h.files.resolve .new path = .ok (.file name)) (hlog : o.log = some path)
    (hreport : ∀ p ∈ o.report, LeadsElsewhere h.files.folders Files.standardTargets name p)
    (hseed : readSeed o.seed = .ok seed) (hchecked : o.checked seed = .ok (summary, notices)) :
    Leads (Judged h.files.folders name summary.verdicts) (CommandLine.verify settings o) h
      fun _ => Judged h.files.folders name summary.verdicts := by
  unfold CommandLine.verify
  rw [seed_of_ok hseed]
  refine (leads_pure (P := fun n h' => n = seed ∧ h' = h) ⟨rfl, rfl⟩).bind ?_
  rintro seed h ⟨rfl, rfl⟩
  extract_lets rest
  let kept := Judged h.files.folders name summary.verdicts
  have hrest : Leads kept (rest (summary, notices)) h fun _ => kept := by
    unfold rest
    dsimp only
    refine (leads_writeNotices settings notices
      (P := fun _ h' => h'.files = h.files ∧ h'.log = h.log) fun _ => And.intro).bind ?_
    rintro _ h₁ ⟨hfiles, -⟩
    rw [hlog]
    dsimp only
    refine (leads_logVerdicts hid (hfiles ▸ hopened) (hfiles ▸ hpath)
      (isFilled_of_checked hchecked)).bind fun _ h₂ hh₂ => ?_
    rw [hfiles] at hh₂
    refine (leads_reports _ _ (P := fun _ => kept) fun _ => hh₂.of_same).bind fun _ h₃ hh₃ => ?_
    refine (leads_wallTime (P := fun _ => kept) fun _ _ => hh₃.of_same).bind fun now h₄ hh₄ => ?_
    have hend : ∀ h', kept h' → Leads kept
        (do
          Step.ofResult summary.ensurePassed
          Step.report s!"OK: {summary.passed} properties verified"
          return Ending.status 0) h' fun _ => kept := by
      intro h' hh'
      refine (leads_ofResult (P := fun _ => kept) (fun _ _ => hh') fun _ _ => hh').bind
        fun _ _ hh' => ?_
      exact (leads_report fun _ => hh'.of_same).bind fun _ _ hh' => leads_pure hh'
    cases hpath : o.report with
    | none => exact hend h₄ hh₄
    | some path =>
      refine (leads_writeReport (P := fun _ => kept) ?_ ?_).bind fun _ => hend
      · rintro h₅ h' hwrite hfiles hlog
        obtain ⟨es, hes, hjudged⟩ := hh₄
        exact ⟨es, (hes.writeFile (hreport path hpath) hwrite).of_same hfiles hlog, hjudged⟩
      · rintro e h' hwrite
        obtain ⟨es, hes, hjudged⟩ := hh₄
        exact ⟨es, hes.writeFile (hreport path hpath) hwrite, hjudged⟩
  unfold VerifyOptions.checked at hchecked
  cases hproperty : o.property with
  | none =>
    rw [hproperty] at hchecked
    have hall : Check.verifyAll seed = (summary, notices) := Except.ok.inj hchecked
    dsimp only
    rw [hall]
    exact hrest
  | some name =>
    rw [hproperty] at hchecked
    dsimp only at hchecked ⊢
    rw [hchecked]
    exact hrest

end

/-! ### The log that is left -/

/-- The log file that is left holds lines of the first entries, at any rate. -/
theorem Logging.conclude {folders : List Files.Place} {name : String} {es : List Entry} {h : Host}
    (hh : Logging folders name es h) (t : Trouble) :
    ∃ text es', es' <+: es ∧ Validation.IsWritten text es' ∧
      (t.conclude.run h).2.files.find? name = some (.ofText text) ∧
      (t.conclude.run h).2.files.folders = folders ∧
      Files.standardTargets <+: (t.conclude.run h).2.files.opened := by
  obtain ⟨-, h₁, hfiles, hlog, hend | hend⟩ := conclude_cases t h
  · obtain ⟨handed, hrecords, hcut⟩ := hh.logs
    obtain ⟨es', hes', hwritten⟩ := isWritten_of_isCut hcut
    rw [hend, hfiles]
    exact ⟨handed, es', hes', hwritten, hrecords.content, hrecords.folders,
      hrecords.opened ▸ List.prefix_append ..⟩
  · obtain ⟨h₂, hclose, -, hfolders, hopened, hcontent⟩ := (hh.of_same hfiles hlog).logs.closeLog
    rw [hend, hclose]
    exact ⟨_, es, List.prefix_rfl, .inl rfl, hcontent, hfolders, hopened ▸ List.prefix_rfl⟩

namespace Command

/-- The path a command logs to, if it keeps a log. -/
def log? : Command → Option String
  | .run o => o.log
  | .verify o => o.log
  | _ => none

/-- No other file the command writes is its log. A benchmark writes its files while the log stands
open. -/
def SparesLog (c : Command) (f : Files) (name : String) : Prop :=
  match c with
  | .run o => ∀ p ∈ o.reports ++ o.artifactIndex.toList,
      ({ f with opened := f.opened ++ [.file name] } : Files).resolve .new p ≠ .ok (.file name)
  | .verify o => ∀ p ∈ o.report, f.resolve .new p ≠ .ok (.file name)
  | _ => True

/-- The texts among the arguments can be read. -/
def IsReadable : Command → Prop
  | .run o => ∃ plan, planOf o = pure plan
  | .verify o => ∃ seed checked, readSeed o.seed = .ok seed ∧ o.checked seed = .ok checked
  | _ => True

/-- What the entries of a log say of the command: of a benchmark that ends well that it began, each
pair that was measured and that it ended, of a verification each verdict. -/
def Tells (c : Command) (ending : Ending) (es : List Entry) : Prop :=
  match c with
  | .run o => ∀ plan, planOf o = pure plan → ending = .status 0 →
      es.length = 2 + plan.pairs.length ∧ es.map subject =
        ("run_start", none, none) :: (plan.pairs.map measured ++ [("run_end", none, none)])
  | .verify o => ∀ seed summary notices, readSeed o.seed = .ok seed →
      o.checked seed = .ok (summary, notices) →
      es.map judged = summary.verdicts.map judgement
  | _ => True

/-- The log that is left at a path is read as a valid text, and its entries tell of the command. -/
def LeavesLog (c : Command) (path : String) (out : Ending × Host) : Prop :=
  ∃ content text es, out.2.files.read path = .ok content ∧ content.text? = .ok text ∧
    Validation.log text = (es.length, []) ∧ Validation.decoded text = es.map .ok ∧
    c.Tells out.1 es

end Command

section
variable {settings : Settings} {words : List String} {c : Command} {h : Host} {path name : String}

/-- What is left is read back as the entries that were written, but for their doubles. -/
theorem leavesLog_of_isWritten {out : Ending × Host} {text : String} {es : List Entry}
    (hpath : h.files.resolve .new path = .ok (.file name)) (hextends : h.files.Extends out.2.files)
    (hcontent : out.2.files.find? name = some (.ofText text))
    (hwritten : Validation.IsWritten text es) (hlawful : ∀ e ∈ es, e.Lawful)
    (htells : c.Tells out.1 (es.map Entry.reread)) : c.LeavesLog path out := by
  have hdecoded : Validation.decoded text = (es.map Entry.reread).map .ok := by
    rw [Validation.decoded_of_isWritten hwritten hlawful, List.map_map]
    rfl
  have hshows : Files.Shows path (.file name) out.2.files := by
    refine ⟨Files.resolve_new_of_extends hextends hpath, ?_⟩
    rintro _ ⟨⟩
    rw [hcontent]
    exact nofun
  have hread : out.2.files.read path = .ok (.ofText text) := by
    rw [hshows.read, Files.content, hcontent]
    rfl
  exact ⟨_, text, _, hread, Content.text?_ofText text, Validation.log_of_decoded hdecoded, hdecoded,
    htells⟩

/-- The log of a benchmark, which memory that is refused may cut short. -/
theorem run_leavesLog {o : RunOptions} (hid : ∀ ch ∈ settings.processId.toList, ch.isDigit)
    (hwords : Demand.ofWords words = .perform (.run o)) (hlog : o.log = some path)
    (hopened : h.files.opened = Files.standardTargets)
    (hpath : h.files.resolve .new path = .ok (.file name))
    (hspares : (Command.run o).SparesLog h.files name) (hreadable : (Command.run o).IsReadable) :
    (Command.run o).LeavesLog path ((CommandLine.program settings words).run h) := by
  obtain ⟨plan, hplan⟩ := hreadable
  have hpaths : ∀ p ∈ o.reports ++ o.artifactIndex.toList,
      LeadsElsewhere h.files.folders (openTargets name) name p := by
    intro p hp
    have helse := leadsElsewhere_of_ne (hspares p hp)
    rwa [hopened] at helse
  have hrun := leads_run hid hopened hpath hlog hpaths hplan
  rcases hrun.program hwords with ⟨ending, h', hout, es, hh, hes⟩ | ⟨t, h', hout, es, hh⟩
  · rw [hout]
    refine leavesLog_of_isWritten hpath ⟨hh.folders, ?_⟩ hh.content (.inl rfl) hh.lawful ?_
    · rw [hopened, hh.opened]
    · intro plan' hplan' _
      cases congrArg ExceptT.run (hplan.symm.trans hplan')
      refine ⟨?_, by rwa [List.map_map]⟩
      have hlength := congrArg List.length hes
      simp only [List.length_map, List.length_cons, List.length_append, List.length_nil] at hlength ⊢
      omega
  · obtain ⟨text, es', hes', hwritten, hcontent, hfolders, hprefix⟩ := hh.conclude t
    rw [hout]
    refine leavesLog_of_isWritten hpath ⟨hfolders, hopened ▸ hprefix⟩ hcontent hwritten ?_ ?_
    · exact fun e he => hh.lawful e (hes'.subset he)
    · exact fun _ _ hwell => absurd hwell (conclude_cases t h').1

/-- The log of a verification, which is closed before anything else is written. -/
theorem verify_leavesLog {o : VerifyOptions} (hid : ∀ ch ∈ settings.processId.toList, ch.isDigit)
    (hwords : Demand.ofWords words = .perform (.verify o)) (hlog : o.log = some path)
    (hopened : h.files.opened = Files.standardTargets)
    (hpath : h.files.resolve .new path = .ok (.file name))
    (hspares : (Command.verify o).SparesLog h.files name)
    (hreadable : (Command.verify o).IsReadable) :
    (Command.verify o).LeavesLog path ((CommandLine.program settings words).run h) := by
  obtain ⟨seed, ⟨summary, notices⟩, hseed, hchecked⟩ := hreadable
  have hreport : ∀ p ∈ o.report,
      LeadsElsewhere h.files.folders Files.standardTargets name p := by
    intro p hp
    have helse := leadsElsewhere_of_ne (hspares p hp)
    rwa [hopened] at helse
  have hverify := leads_verify hid hopened hpath hlog hreport hseed hchecked
  have hjudged : ∃ h', Judged h.files.folders name summary.verdicts h' ∧
      ((CommandLine.program settings words).run h).2.files = h'.files := by
    rcases hverify.program hwords with ⟨ending, h', hout, hh⟩ | ⟨t, h', hout, es, hh, hes⟩
    · exact ⟨h', hh, by rw [hout]⟩
    · exact ⟨h', ⟨es, hh, hes⟩, by rw [hout, files_conclude_of_closed t hh.closed]⟩
  obtain ⟨h', ⟨es, hh, hes⟩, hfiles⟩ := hjudged
  refine leavesLog_of_isWritten hpath ⟨?_, ?_⟩ (hfiles ▸ hh.content) (.inl rfl) hh.lawful ?_
  · rw [hfiles, hh.folders]
  · rw [hfiles, hopened, hh.opened]
  · intro seed' summary' notices' hseed' hchecked'
    obtain rfl := Except.ok.inj (hseed.symm.trans hseed')
    cases hchecked.symm.trans hchecked'
    rwa [List.map_map]

/-- A command whose texts cannot be read touches no file. -/
theorem leads_unreadable (hc : ¬ c.IsReadable) :
    Leads (· = h) (c.perform settings) h fun _ _ => False := by
  cases c with
  | run o =>
    rcases planOf_cases o with ⟨t, ht⟩ | ⟨plan, hplan, -⟩
    · rw [Command.perform, CommandLine.run, ht]
      exact leads_throw_bind rfl
    · exact absurd ⟨plan, hplan⟩ hc
  | verify o =>
    rw [Command.perform, CommandLine.verify]
    cases hseed : readSeed o.seed with
    | error e =>
      rw [seed_of_error hseed]
      exact leads_throw_bind rfl
    | ok seed =>
      cases hchecked : o.checked seed with
      | ok checked => exact absurd ⟨seed, checked, hseed, hchecked⟩ hc
      | error e =>
        rw [seed_of_ok hseed]
        refine (leads_pure (P := fun n h' => n = seed ∧ h' = h) ⟨rfl, rfl⟩).bind ?_
        rintro seed h ⟨rfl, rfl⟩
        unfold VerifyOptions.checked at hchecked
        cases hproperty : o.property with
        | none => rw [hproperty] at hchecked; cases hchecked
        | some name =>
          rw [hproperty] at hchecked
          dsimp only at hchecked ⊢
          rw [hchecked]
          exact leads_throw_bind rfl
  | bindFailure | validateLog => exact absurd trivial hc

/-- The log file that every `run` and every `verify` leaves is valid, whatever comes of the command,
if its path leads to a file that the command does not write otherwise. After a benchmark that ends well
its lines are that of the beginning, one for each pair that was measured and that of the end; after a
verification they are one for each verdict, with its outcome. A command whose texts cannot be read
leaves all files as they were. -/
theorem log_left (hid : ∀ ch ∈ settings.processId.toList, ch.isDigit)
    (hwords : Demand.ofWords words = .perform c) (hlog : c.log? = some path)
    (hclosed : h.log = none) (hopened : h.files.opened = Files.standardTargets)
    (hpath : h.files.resolve .new path = .ok (.file name)) (hspares : c.SparesLog h.files name) :
    let out := (CommandLine.program settings words).run h
    (c.IsReadable → c.LeavesLog path out) ∧ (¬ c.IsReadable → out.2.files = h.files) := by
  refine ⟨fun hreadable => ?_, fun hunreadable => ?_⟩
  · cases c with
    | run o => exact run_leavesLog hid hwords hlog hopened hpath hspares hreadable
    | verify o => exact verify_leavesLog hid hwords hlog hopened hpath hspares hreadable
    | bindFailure | validateLog => cases hlog
  · rcases (leads_unreadable hunreadable).program hwords with ⟨_, _, -, hno⟩ | ⟨t, h', hout, rfl⟩
    · exact hno.elim
    · rw [hout]
      exact files_conclude_of_closed t hclosed

end

/-- A benchmark whose samples take no calls: its measurement fails, with an entry, and so does the
command. -/
theorem log_left_failed :
    let settings : Settings := { processId := "7" }
    let words := ["run", "--shapes", "noop", "--lengths", "0", "--iters", "0", "--log", "l"]
    let h : Host :=
      { wall := { seconds := 0 }, clock := { ticks := #[1] }, files := { entries := [("l", [0])] } }
    ∃ o plan, Demand.ofWords words = .perform (.run o) ∧ planOf o = pure plan ∧
      plan.pairs = [(.noop, 0)] ∧
      (Command.run o).LeavesLog "l" ((CommandLine.program settings words).run h) := by
  intro settings words h
  have hwords : Demand.ofWords words = .perform (.run ⟨"noop", "0", "ascending", "0xDEAD_BEEF", 1000,
      15, 0, none, none, some "l", none, none⟩) := by decide +kernel
  have hpath : h.files.resolve .new "l" = .ok (.file "l") := by decide +kernel
  have hid : ∀ ch ∈ settings.processId.toList, ch.isDigit := by
    show ∀ ch ∈ "7".toList, ch.isDigit
    simp
  have hseed : readSeed "0xDEAD_BEEF" = .ok 0xDEADBEEF := by decide +kernel
  have hplan := planOf_eq (o := ⟨"noop", "0", "ascending", "0xDEAD_BEEF", 1000, 15, 0, none, none,
    some "l", none, none⟩) rfl rfl rfl hseed
  have hleft := log_left hid hwords rfl rfl rfl hpath (by rintro p hp; cases hp)
  exact ⟨_, _, hwords, hplan, rfl, hleft.1 ⟨_, hplan⟩⟩

theorem read_null (f : Files) : f.read "/dev/null" = .ok [] := by
  have hparts : (Text.splitChars '/' "/dev/null".toList).map String.ofList = ["", "dev", "null"] := by
    decide
  have hslash : "/dev/null".startsWith "/" := by decide +kernel
  have hsizes : ¬ Files.maxName < "dev".utf8ByteSize ∧ ¬ Files.maxName < "null".utf8ByteSize := by
    decide
  have hlocate : f.locate .existing "/dev/null" = .ok .null := by
    rw [Files.locate, if_neg (by decide), if_neg (by decide), hparts]
    simp [hslash, hsizes, Files.walk, Files.entry?, Files.standing?, Files.shown,
      Files.rootEntries, Files.devices]
  have hplain : "/dev/null".toList.contains '\x00' = false := by decide
  rw [Files.read, Files.resolve, hplain, hlocate]
  rfl

/-- A log that leads to the null device is left without a line, though all went well. -/
theorem verify_log_null :
    let settings : Settings := { processId := "7" }
    let words := ["verify", "--property", "idempotent_binding", "--log", "/dev/null"]
    let h : Host := { wall := { seconds := 0 }, clock := { ticks := #[1] } }
    let out := (CommandLine.program settings words).run h
    ∃ o, Demand.ofWords words = .perform (.verify o) ∧ o.log = some "/dev/null" ∧ o.report = none ∧
      (Command.verify o).IsReadable ∧ out.1 = .status 0 ∧
      ¬ (Command.verify o).LeavesLog "/dev/null" out := by
  intro settings words h out
  have hwords : Demand.ofWords words = .perform (.verify ⟨"0xDEAD_BEEF", some "idempotent_binding",
      none, some "/dev/null"⟩) := by decide +kernel
  have hwell : out.1 = .status 0 := by decide +kernel
  refine ⟨_, hwords, rfl, rfl, ⟨_, _, rfl, rfl⟩, hwell, ?_⟩
  rintro ⟨content, text, es, hread, htext, -, hdecoded, htells⟩
  obtain rfl : [] = content := Except.ok.inj ((read_null out.2.files).symm.trans hread)
  obtain rfl : "" = text := by
    have hempty : Content.text? [] = .ok "" := by decide +kernel
    exact Except.ok.inj (hempty.symm.trans htext)
  have hnone : es = [] := List.map_eq_nil_iff.1 hdecoded.symm
  subst hnone
  have hjudged := htells _ _ _ rfl rfl
  cases hjudged

end CommandLine
end CallBridge
