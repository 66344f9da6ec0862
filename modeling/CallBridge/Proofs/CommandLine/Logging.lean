import CallBridge.Proofs.CommandLine.Steps

/-!
# The log of a benchmark

A log that is written to a file stands open with the lines of lawful entries (`Logging`) until it is
closed and its file holds their text (`Logged`). Whatever comes of a step of a benchmark, the log
stands open as long as its last entry is not written (`leads_run`). What was handed over of an open
log is always the lines of the first entries, the last perhaps without its end
(`isWritten_of_isCut`).
-/

namespace CallBridge

namespace Log
open Validation

theorem isPlain_of_notMem {runId : String} (h : ':' ∉ runId.toList) : IsPlain runId :=
  fun hcolons => h (hcolons.subset (List.mem_cons_self ..))

theorem Entry.Lawful.traceId_ne {e : Entry} (h : e.Lawful) : e.traceId ≠ "" := by
  intro hempty
  have hparts := h.traceId
  rw [hempty] at hparts
  exact absurd hparts (by decide)

/-- What is handed over of a text of lines is written with entries that come first. -/
theorem isWritten_of_isCut {text : String} {es : List Entry}
    (h : Host.IsCut text (es.map (·.line))) : ∃ es', es' <+: es ∧ IsWritten text es' := by
  obtain ⟨before, after, hes, htext⟩ := h
  obtain ⟨es₁, es₂, rfl, rfl, hafter⟩ := List.map_eq_append_iff.1 hes
  rcases htext with rfl | ⟨l, rest, rfl, rfl⟩
  · exact ⟨es₁, List.prefix_append .., .inl rfl⟩
  · obtain ⟨e, es₃, rfl, rfl, -⟩ := List.map_eq_cons_iff.1 hafter
    exact ⟨es₁ ++ [e], ⟨es₃, by simp⟩, .inr ⟨es₁, e, rfl, rfl⟩⟩

end Log

namespace CommandLine
open Bench Diagnostic Log CallBridge.CommandLine.Step

/-! ### A log of lawful entries -/

/-- The log stands open, a file that has taken the lines of these entries. -/
structure Logging (folders : List Files.Place) (name : String) (es : List Entry) (h : Host) :
    Prop where
  logs : h.Logs folders name (es.map (·.line))
  lawful : ∀ e ∈ es, e.Lawful

/-- The log is closed, and its file holds the lines of these entries. -/
structure Logged (folders : List Files.Place) (name : String) (es : List Entry) (h : Host) :
    Prop where
  closed : h.log = none
  folders : h.files.folders = folders
  opened : h.files.opened = Files.standardTargets
  content : h.files.find? name = some (.ofText (Text.ofLines (es.map (·.line))))
  lawful : ∀ e ∈ es, e.Lawful

/-- Among these folders and as long as this stands open the path does not lead to the file. -/
def LeadsElsewhere (folders : List Files.Place) (opened : List Files.Target) (name path : String) :
    Prop :=
  ∀ f : Files, f.folders = folders → f.opened = opened → f.resolve .new path ≠ .ok (.file name)

theorem leadsElsewhere_of_ne {f : Files} {name path : String}
    (h : f.resolve .new path ≠ .ok (.file name)) :
    LeadsElsewhere f.folders f.opened name path :=
  fun _ hfolders hopened hpath =>
    h (Files.resolve_new_of_extends ⟨hfolders.symm, hopened ▸ List.prefix_rfl⟩ hpath)

/-- What stands open while a log is written to a file. -/
def openTargets (name : String) : List Files.Target := Files.standardTargets ++ [.file name]

section
variable {folders : List Files.Place} {name path text : String} {es added : List Entry}
  {h h' : Host} {failed : Host → Prop}

theorem Logging.takes (hh : Logging folders name es h) (ht : h.Takes (added.map (·.line)) h')
    (hadded : ∀ e ∈ added, e.Lawful) : Logging folders name (es ++ added) h' where
  logs := by
    rw [List.map_append]
    exact hh.logs.takes ht
  lawful := List.forall_mem_append.2 ⟨hh.lawful, hadded⟩

theorem Logging.of_same (hh : Logging folders name es h) (hfiles : h'.files = h.files)
    (hlog : h'.log = h.log) : Logging folders name es h' :=
  ⟨hh.logs.of_same hfiles hlog, hh.lawful⟩

theorem Logging.opened (hh : Logging folders name es h) : h.files.opened = openTargets name := by
  obtain ⟨handed, hrecords, -⟩ := hh.logs
  exact hrecords.opened

theorem Logging.folders_eq (hh : Logging folders name es h) : h.files.folders = folders := by
  obtain ⟨handed, hrecords, -⟩ := hh.logs
  exact hrecords.folders

theorem Logging.writeFile {r : Except FileError Unit} (hh : Logging folders name es h)
    (hpath : LeadsElsewhere folders (openTargets name) name path)
    (hwrite : h.writeFile path text = (r, h')) : Logging folders name es h' :=
  ⟨hh.logs.writeFile (hpath _ hh.folders_eq hh.opened) hwrite, hh.lawful⟩

theorem Logged.of_same (hh : Logged folders name es h) (hfiles : h'.files = h.files)
    (hlog : h'.log = h.log) : Logged folders name es h' :=
  ⟨hlog ▸ hh.closed, hfiles ▸ hh.folders, hfiles ▸ hh.opened, hfiles ▸ hh.content, hh.lawful⟩

theorem Logged.writeFile {r : Except FileError Unit} (hh : Logged folders name es h)
    (hpath : LeadsElsewhere folders Files.standardTargets name path)
    (hwrite : h.writeFile path text = (r, h')) : Logged folders name es h' := by
  rcases Host.writeFile_cases hwrite with ⟨-, rfl⟩ | ⟨t, ht, hsame, hlog, -⟩
  · exact hh
  · have hne : Files.Target.file name ≠ t := fun heq => hpath _ hh.folders hh.opened (heq ▸ ht)
    exact ⟨hlog.trans hh.closed, hsame.folders.trans hh.folders, hsame.opened.trans hh.opened,
      (hsame.find? name hne).trans hh.content, hh.lawful⟩

theorem leads_openLog (hlog : h.files.opened = Files.standardTargets)
    (hpath : h.files.resolve .new path = .ok (.file name)) :
    Leads failed (attempt (.openLog path)) h fun _ => Logging h.files.folders name [] := by
  obtain ⟨h₁, hopen, hlogs⟩ := Host.logs_openLog hlog hpath
  refine leads_attempt ?_ ?_
  · intro _ h' hserve
    obtain rfl := congrArg Prod.snd (hopen.symm.trans hserve)
    exact ⟨hlogs, List.forall_mem_nil _⟩
  · intro e h' hserve
    exact nomatch congrArg Prod.fst (hopen.symm.trans hserve)

theorem leads_closeLog (hh : Logging folders name es h) :
    Leads failed (attempt .closeLog) h fun _ => Logged folders name es := by
  obtain ⟨h₁, hclose, hclosed, hfolders, hopened, hcontent⟩ := hh.logs.closeLog
  refine leads_attempt ?_ ?_
  · intro _ h' hserve
    obtain rfl := congrArg Prod.snd (hclose.symm.trans hserve)
    exact ⟨hclosed, hfolders, hopened, hcontent, hh.lawful⟩
  · intro e h' hserve
    exact nomatch congrArg Prod.fst (hclose.symm.trans hserve)

theorem Logging.leads_writeEntry {log : Emitter} {e : Entry} (hh : Logging folders name es h)
    (he : e.Lawful) (hkind : e.runKind ≠ none) :
    Leads failed (writeEntry log e) h fun log' h' =>
      log' = log.write e ∧ Logging folders name (es ++ [e]) h' := by
  refine CommandLine.leads_writeEntry he.traceId_ne hkind (fun h' ht => ⟨rfl, ?_⟩) fun hrefuses => ?_
  · have hadded : h.Takes ([e].map (·.line)) h' := ht
    exact hh.takes hadded (List.forall_mem_singleton.2 he)
  · exact absurd hrefuses hh.logs.not_refuses

theorem Logging.leads_writeReport {what : String} (hh : Logging folders name es h)
    (hpath : LeadsElsewhere folders (openTargets name) name path) :
    Leads (Logging folders name es) (writeReport what path text) h
      fun _ => Logging folders name es :=
  CommandLine.leads_writeReport
    (fun _ _ hwrite hfiles hlog => (hh.writeFile hpath hwrite).of_same hfiles hlog)
    fun _ _ hwrite => hh.writeFile hpath hwrite

end

/-! ### A benchmark -/

section
variable {folders : List Files.Place} {name path runId : String} {es : List Entry} {h : Host}
  {failed : Host → Prop} {o : RunOptions}

theorem leads_nameRun (settings : Settings) (hid : ∀ c ∈ settings.processId.toList, c.isDigit) :
    Leads failed (nameRun settings) h fun runId h' =>
      IsPlain runId ∧ h'.files = h.files ∧ h'.log = h.log := by
  have hprocess : ':' ∉ settings.processId.toList := fun hmem => absurd (hid _ hmem) (by decide)
  have hnumber : ∀ n, ':' ∉ Nat.toDigits 10 n := fun n hmem =>
    absurd (Nat.isDigit_of_mem_toDigits (by decide) (by decide) hmem) (by decide)
  have hdash : ':' ∉ "-".toList := by decide
  refine leads_wallTime_same.bind ?_
  rintro now h' hsame
  refine leads_pure ⟨isPlain_of_notMem ?_, hsame⟩
  simp only [String.toList_append, List.mem_append, not_or]
  exact ⟨⟨by simpa using hnumber _, hdash⟩, hprocess⟩

/-- An entry that says no more than when it was begun and how it went. -/
theorem lawful_of_bare {e : Entry} {kind : RunKind} {runId : String} {number : Nat}
    (hplain : IsPlain runId) (hid : e.traceId = traceId kind runId number)
    (hevent : e.event ≠ Validation.measurementEvent ∧ e.event ≠ Validation.propertyEvent)
    (hlength : e.length = none) (hcode : e.exitCode = none)
    (hduration : ∀ n, e.duration = some n → n < lengthLimit) (hinput : e.input = none)
    (hdetails : e.details = none) : e.Lawful where
  range := ⟨by simp [hlength], by simp [hcode], hduration⟩
  traceId := hid ▸ (Validation.parts_traceId_iff ..).2 hplain
  input := by simp [hinput]
  shape := fun h => absurd h hevent.1
  property := fun h => absurd h hevent.2
  details := by simp [Entry.FlatDetails, hdetails]

theorem leads_beginLog (hopened : h.files.opened = Files.standardTargets)
    (hpath : h.files.resolve .new path = .ok (.file name)) (hplain : IsPlain runId) :
    Leads failed (beginLog (some path) runId) h fun log h' =>
      log.map (·.runId) = some runId ∧
        ∃ e, Logging h.files.folders name [e] h' ∧ subject e = ("run_start", none, none) := by
  refine (leads_openLog hopened hpath).bind fun _ h₁ hh₁ => ?_
  refine (leads_wallTime (P := fun _ => Logging h.files.folders name [])
    fun _ _ => hh₁.of_same).bind fun now h₂ hlogging => ?_
  simp only [Emitter.entry, Emitter.nextTraceId]
  have hevent : "run_start" ≠ Validation.measurementEvent ∧
      "run_start" ≠ Validation.propertyEvent := by decide
  refine (hlogging.leads_writeEntry ?_ ?_).bind ?_
  · exact lawful_of_bare hplain rfl hevent rfl rfl (by rintro _ ⟨⟩) rfl rfl
  · exact Option.some_ne_none _
  · rintro _ h' ⟨rfl, hlogging'⟩
    exact leads_pure ⟨rfl, _, hlogging', rfl⟩

theorem Logging.leads_writeReports (hh : Logging folders name es h)
    (hpaths : ∀ p ∈ o.reports, LeadsElsewhere folders (openTargets name) name p)
    (r : Bench.Report) :
    Leads (Logging folders name es) (writeReports o r) h fun _ => Logging folders name es := by
  refine (CommandLine.leads_writeReports (P := fun _ => Logging folders name es) ?_ ?_).mono ?_
  · exact fun _ => hh.of_same
  · exact fun _ path _ _ _ hmem hh' => hh'.leads_writeReport (hpaths path hmem)
  · exact fun _ _ => And.right

/-- Looking at files leaves the host as it is. -/
theorem leads_indexFiles (x : ArtifactIndex) (paths : List String) :
    Leads (· = h) (indexFiles x paths) h fun _ h' => h' = h := by
  induction paths generalizing x with
  | nil => exact leads_pure rfl
  | cons path rest ih =>
    have hread : ∀ content h', h.serve (.readFile path) = (content, h') → h' = h :=
      fun _ _ hserve => (congrArg Prod.snd hserve).symm
    refine (leads_attempt (P := fun _ h' => h' = h) (fun _ => hread _) fun _ => hread _).bind ?_
    rintro content _ rfl
    exact ih _

theorem Logging.leads_writeIndex (hh : Logging folders name es h)
    (hpath : ∀ p ∈ o.artifactIndex, LeadsElsewhere folders (openTargets name) name p)
    (runId : String) (paths : List String) :
    Leads (Logging folders name es) (writeIndex o runId paths) h
      fun _ => Logging folders name es := by
  unfold writeIndex
  cases hindex : o.artifactIndex with
  | none => exact leads_pure hh
  | some path =>
    dsimp only
    split
    · exact leads_throw_bind hh
    · refine (leads_wallTime (P := fun _ => Logging folders name es)
        fun _ _ => hh.of_same).bind fun now h₁ hh₁ => ?_
      refine ((leads_indexFiles _ paths).of_failed ?_).bind ?_
      · rintro _ rfl
        exact hh₁
      · rintro x _ rfl
        exact hh₁.leads_writeReport (hpath path hindex)

/-- The log of a benchmark is ended by a last entry and closed. -/
theorem Logging.leads_endLog {log : Emitter} (hh : Logging folders name es h)
    (hplain : IsPlain log.runId) (start : Nat) (paths : List String) :
    Leads failed (endLog (some log) start paths) h fun _ h' =>
      ∃ e, Logged folders name (es ++ [e]) h' ∧ subject e = ("run_end", none, none) := by
  have hevent : "run_end" ≠ Validation.measurementEvent ∧
      "run_end" ≠ Validation.propertyEvent := by decide
  refine (leads_wallTime (P := fun _ => Logging folders name es)
    fun _ _ => hh.of_same).bind fun now h₀ hh₀ => ?_
  refine (leads_ask (P := fun _ => Logging folders name es) (hh₀.of_same rfl rfl)).bind
    fun stop h₁ hh₁ => ?_
  simp only [Emitter.entry, Emitter.nextTraceId]
  refine (hh₁.leads_writeEntry ?_ ?_).bind ?_
  · have hduration : milliseconds start stop < lengthLimit := Nat.mod_lt _ (by decide)
    refine lawful_of_bare hplain rfl hevent rfl rfl ?_ rfl rfl
    intro n hn
    obtain rfl := Option.some.inj hn
    exact hduration
  · exact Option.some_ne_none _
  · rintro _ h₂ ⟨-, hh₂⟩
    exact (leads_closeLog hh₂).mono fun _ h' hclosed => ⟨_, hclosed, rfl⟩

/-- A benchmark whose plan can be read leaves its log open at a trouble, and closed if it ends
well. -/
theorem leads_run {settings : Settings} {plan : Plan}
    (hid : ∀ c ∈ settings.processId.toList, c.isDigit)
    (hopened : h.files.opened = Files.standardTargets)
    (hpath : h.files.resolve .new path = .ok (.file name)) (hlog : o.log = some path)
    (hpaths : ∀ p ∈ o.reports ++ o.artifactIndex.toList,
      LeadsElsewhere h.files.folders (openTargets name) name p)
    (hplan : planOf o = pure plan) :
    Leads (fun h' => ∃ es, Logging h.files.folders name es h') (CommandLine.run settings o) h
      fun _ h' => ∃ es, Logged h.files.folders name es h' ∧ es.map subject =
        ("run_start", none, none) :: (plan.pairs.map measured ++ [("run_end", none, none)]) := by
  have hlengths : ∀ n ∈ plan.lengths, n < lengthLimit := by
    rcases planOf_cases o with ⟨t, ht⟩ | ⟨plan', hplan', hlengths⟩
    · cases congrArg ExceptT.run (ht.symm.trans hplan)
    · cases congrArg ExceptT.run (hplan'.symm.trans hplan)
      exact hlengths
  obtain ⟨hreports, hindex⟩ := List.forall_mem_append.1 hpaths
  have hread : Leads (fun h' => ∃ es, Logging h.files.folders name es h') (planOf o) h
      fun plan' h' => plan' = plan ∧ h' = h := by
    rw [hplan]
    exact leads_pure ⟨rfl, rfl⟩
  unfold CommandLine.run
  rw [hlog]
  refine hread.bind ?_
  rintro _ _ ⟨rfl, rfl⟩
  refine (leads_nameRun settings hid).bind ?_
  rintro runId h₀ ⟨hplain, hsame, -⟩
  rw [← hsame] at hopened hpath hreports hindex ⊢
  refine (leads_beginLog hopened hpath hplain).bind ?_
  rintro log h₁ ⟨hrun, first, hh₁, hfirst⟩
  refine (leads_ask (P := fun _ => Logging h₀.files.folders name [first])
    (hh₁.of_same rfl rfl)).bind ?_
  intro start h₂ hh₂
  refine (leads_report (P := fun _ => Logging h₀.files.folders name [first])
    fun _ => hh₂.of_same).bind ?_
  intro _ h₃ hh₃
  have harePlain : ArePlain (some runId) := by
    rintro _ ⟨⟩
    exact hplain
  -- the log is open from here on: a trouble leaves it with what the benchmark has added so far
  extract_lets _ workbench
  have hbench : workbench.runId? = some runId := hrun
  refine (leads_doTask (writes_run hlengths) hbench ?_ ?_).bind ?_
  · intro h₄ added ht hlawful
    exact ⟨_, hh₃.takes ht (hlawful harePlain)⟩
  · exact fun hrefuses => absurd hrefuses hh₃.logs.not_refuses
  rintro ⟨measurements, b⟩ h₄ ⟨added, ht, hsame, hlawful, hadded⟩
  have hh₄ := hh₃.takes ht (hlawful harePlain)
  refine (leads_timestamp _ (P := fun _ => Logging h₀.files.folders name ([first] ++ added))
    fun _ _ => hh₄.of_same).bind ?_
  intro timestamp h₅ hh₅
  refine ((hh₅.leads_writeReports hreports _).of_failed fun _ hh => ⟨_, hh⟩).bind ?_
  intro paths h₆ hh₆
  refine ((hh₆.leads_writeIndex ?_ runId paths).of_failed fun _ hh => ⟨_, hh⟩).bind ?_
  · intro p hp
    exact hindex p (by simpa using hp)
  intro _ h₇ hh₇
  obtain ⟨log', hlog', hrun'⟩ := Option.map_eq_some_iff.1 hsame
  rw [hlog']
  refine (hh₇.leads_endLog (hrun' ▸ hplain) start paths).bind ?_
  rintro _ h' ⟨last, hclosed, hlast⟩
  refine leads_pure ⟨_, hclosed, ?_⟩
  simp [hfirst, hlast, hadded rfl]

end

end CommandLine
end CallBridge
