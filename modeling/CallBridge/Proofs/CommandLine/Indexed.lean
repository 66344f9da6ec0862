import CallBridge.Proofs.CommandLine.Steps
import Mathlib.Data.List.Forall2

/-!
# The index a benchmark leaves

The index is made from what is read back of the reports, while the log still stands open; afterwards
only the index itself and the log are written. If all of them lead to different targets, what the
index tells of the reports is so at the end (`index_tells`), their kinds apart, which are told by the
endings of their paths.
-/

namespace CallBridge

namespace Log.ArtifactIndex

/-- Nothing is stale while every file can be read and is intact. -/
theorem stale_eq_nil {x : ArtifactIndex} {read : String → Except FileError Content}
    (h : ∀ a ∈ x.artifacts, ∃ c, read a.path = .ok c ∧ a.isIntact c) : x.stale read = .ok [] := by
  have hjudged : ∀ as : List Artifact, (∀ a ∈ as, ∃ c, read a.path = .ok c ∧ a.isIntact c) →
      (as.mapM fun a => return (a, a.isIntact (← read a.path)) : Except FileError _) =
        .ok (as.map (·, true)) := by
    intro as
    induction as with
    | nil => exact fun _ => rfl
    | cons a rest ih =>
      intro has
      obtain ⟨⟨c, hread, hintact⟩, hrest⟩ := List.forall_mem_cons.1 has
      rw [List.mapM_cons, ih hrest, hread]
      show Except.ok ((a, a.isIntact c) :: _) = _
      rw [hintact]
      rfl
  unfold stale
  rw [hjudged x.artifacts h]
  show Except.ok _ = _
  simp

end Log.ArtifactIndex

/-! ### What is written while a log stands open -/

namespace Host
variable {h h' : Host} {folders : List Files.Place} {log? : Option Files.Target} {ls : List String}
  {path text : String} {t : Files.Target}

/-- Among these folders nothing stands open besides the streams but the log, which leads there. -/
structure OpenAs (folders : List Files.Place) (log? : Option Files.Target) (h : Host) : Prop where
  log : h.log.map (·.target) = log?
  folders : h.files.folders = folders
  opened : h.files.opened = Files.standardTargets ++ log?.toList

theorem OpenAs.of_same (hh : h.OpenAs folders log?) (hfiles : h'.files = h.files)
    (hlog : h'.log = h.log) : h'.OpenAs folders log? :=
  ⟨hlog ▸ hh.log, hfiles ▸ hh.folders, hfiles ▸ hh.opened⟩

theorem SameBut.openAs (hs : SameBut t h h') (hh : h.OpenAs folders log?) :
    h'.OpenAs folders log? :=
  ⟨hs.target.trans hh.log, hs.folders.trans hh.folders, hs.opened.trans hh.opened⟩

/-- The files that are not the log, if there is one. -/
def KeepsOthers (log? : Option Files.Target) (h h' : Host) : Prop :=
  ∀ name, some (.file name) ≠ log? → h'.files.find? name = h.files.find? name

theorem OpenAs.takes (hh : h.OpenAs folders log?) (ht : h.Takes ls h') :
    h'.OpenAs folders log? ∧ KeepsOthers log? h h' := by
  have hlog := hh.log
  cases ho : h.log with
  | none =>
    have hs : SameBut .null h h' := ht.sameBut fun o hsome => by rw [ho] at hsome; cases hsome
    exact ⟨hs.openAs hh, fun name _ => hs.find? name nofun⟩
  | some o =>
    have hs : SameBut o.target h h' :=
      ht.sameBut fun o' hsome => by rw [ho] at hsome; cases hsome; rfl
    rw [ho] at hlog
    exact ⟨hs.openAs hh, fun name hname => hs.find? name fun heq => hname (by rw [heq, ← hlog]; rfl)⟩

theorem OpenAs.closeLog (hh : h.OpenAs folders log?) (hclose : h.closeLog = (.ok (), h')) :
    h'.OpenAs folders none ∧ KeepsOthers log? h h' := by
  have hlog := hh.log
  unfold Host.closeLog at hclose
  cases ho : h.log with
  | none =>
    rw [ho] at hclose hlog
    obtain rfl := congrArg Prod.snd hclose
    cases hlog
    exact ⟨hh, fun _ _ => rfl⟩
  | some o =>
    rw [ho] at hclose hlog
    dsimp only at hclose
    split at hclose
    · rename_i h₁ hdelivered
      obtain rfl := congrArg Prod.snd hclose
      obtain ⟨hs, -⟩ := sameBut_foldlM hdelivered
      exact ⟨hs.openAs ⟨rfl, hh.folders, rfl⟩,
        fun name hname => hs.find? name fun heq => hname (by rw [heq, ← hlog]; rfl)⟩
    · cases hclose

/-- What a path leads to can be read, and holds this text if it is a file; nothing else was
touched. -/
def Writes (path text : String) (h h' : Host) : Prop :=
  ∃ t, Files.Shows path t h'.files ∧ SameBut t h h' ∧
    ∀ name, t = .file name → h'.files.find? name = some (.ofText text)

theorem writes_of_writeFile (hwrite : h.writeFile path text = (.ok (), h')) :
    Writes path text h h' := by
  rcases writeFile_cases hwrite with ⟨⟨e, he⟩, -⟩ | ⟨t, ht, hs, hlog, hcontent⟩
  · cases he
  · refine ⟨t, ⟨Files.resolve_new_of_extends hs.extends ht, ?_⟩, hs, hcontent rfl⟩
    intro name hname
    rw [hcontent rfl name hname]
    exact nofun

theorem Writes.of_same {h₀ h₁ : Host} (hw : Writes path text h₀ h₁) (hfiles₀ : h₀.files = h.files)
    (hlog₀ : h₀.log = h.log) (hfiles : h'.files = h₁.files) (hlog : h'.log = h₁.log) :
    Writes path text h h' := by
  obtain ⟨t, hshows, hs, hcontent⟩ := hw
  refine ⟨t, hfiles ▸ hshows, ?_, hfiles ▸ hcontent⟩
  exact (SameBut.of_same hfiles₀ hlog₀).trans (hs.trans (.of_same hfiles hlog))

theorem Writes.openAs (hw : Writes path text h h') (hh : h.OpenAs folders log?) :
    h'.OpenAs folders log? := by
  obtain ⟨t, -, hs, -⟩ := hw
  exact hs.openAs hh

/-- What is there stays there, whatever is written. -/
theorem Writes.shows {other : String} (hw : Writes path text h h')
    (hshows : Files.Shows other t h.files) : Files.Shows other t h'.files := by
  obtain ⟨u, -, hs, hcontent⟩ := hw
  refine ⟨Files.resolve_new_of_extends hs.extends hshows.resolve, ?_⟩
  intro name hname
  by_cases hu : u = .file name
  · rw [hcontent name hu]
    exact nofun
  · rw [hs.find? name (Ne.symm hu)]
    exact hshows.there name hname

end Host

namespace CommandLine
open Bench Diagnostic Log CallBridge.CommandLine.Step

/-- What the log of a benchmark leads to, if it keeps one. -/
def RunOptions.logTarget? (o : RunOptions) (f : Files) : Option Files.Target :=
  o.log.bind fun path => (f.resolve .new path).toOption

/-- The files while the log stands open. -/
def RunOptions.openFiles (o : RunOptions) (f : Files) : Files :=
  { f with opened := f.opened ++ (o.logTarget? f).toList }

/-- What all the paths that a benchmark writes to lead to. -/
def RunOptions.targets (o : RunOptions) (f : Files) : List Files.Target :=
  (o.reports ++ o.artifactIndex.toList).filterMap (fun path =>
    ((o.openFiles f).resolve .new path).toOption) ++ (o.logTarget? f).toList

/-- The artifact that an index tells of a path. -/
def IsIndexed (f : Files) (path : String) (a : Artifact) : Prop :=
  ∃ c, f.read path = .ok c ∧ a = .ofContent path (artifactKind path) c

section
variable {h : Host} {o : RunOptions} {folders : List Files.Place} {log? : Option Files.Target}
  {index : String}

/-- A trouble is none of this matter. -/
def anyHost (_ : Host) : Prop := True

theorem leads_beginLog_openAs (hclosed : h.log = none)
    (hopened : h.files.opened = Files.standardTargets) (runId : String) :
    Leads anyHost (beginLog o.log runId) h fun log h' =>
      h'.OpenAs h.files.folders (o.logTarget? h.files) ∧
        log.isSome = (o.logTarget? h.files).isSome := by
  unfold RunOptions.logTarget?
  cases o.log with
  | none =>
    refine leads_pure ⟨⟨by rw [hclosed]; rfl, rfl, ?_⟩, rfl⟩
    rw [hopened]
    rfl
  | some path =>
    dsimp only [Option.bind_some]
    have hbegun : Leads anyHost (attempt (.openLog path)) h fun _ h' =>
        ∃ t, h.files.resolve .new path = .ok t ∧ h'.OpenAs h.files.folders (some t) := by
      refine leads_attempt (fun _ h' hserve => ?_) fun _ _ _ => trivial
      have hopen : h.openLog path = _ := hserve
      unfold Host.openLog Host.create at hopen
      cases hpath : h.files.resolve .new path with
      | error e => rw [hpath] at hopen; cases hopen
      | ok t =>
        rw [hpath] at hopen
        obtain rfl := congrArg Prod.snd hopen
        refine ⟨t, rfl, rfl, (Host.sameBut_clear t h).folders, ?_⟩
        show (h.files.clear t).opened ++ [t] = _
        rw [(Host.sameBut_clear t h).opened, hopened]
        rfl
    refine hbegun.bind ?_
    rintro _ h₁ ⟨t, hpath, hh₁⟩
    refine (leads_wallTime (P := fun _ h' => h'.OpenAs h.files.folders (some t))
      fun _ _ => hh₁.of_same).bind fun now h₂ hh₂ => ?_
    rw [hpath]
    simp only [Emitter.entry, Emitter.nextTraceId]
    refine (leads_writeEntry (P := fun _ h' => h'.OpenAs h.files.folders (some t)) ?_ ?_ ?_ ?_).bind
      ?_
    · exact traceId_ne_empty _ _ _
    · exact Option.some_ne_none _
    · exact fun _ ht => (hh₂.takes ht).1
    · exact fun _ _ => trivial
    · exact fun log h' hh' => leads_pure ⟨hh', rfl⟩

theorem leads_writeReport_writes {what path text : String} :
    Leads anyHost (writeReport what path text) h fun _ h' => Host.Writes path text h h' :=
  leads_writeReport
    (fun _ _ hwrite => (Host.writes_of_writeFile hwrite).of_same rfl rfl) fun _ _ _ => trivial

theorem leads_writeReports_openAs (hh : h.OpenAs folders log?) (r : Bench.Report) :
    Leads anyHost (writeReports o r) h fun paths h' => paths = o.reports ∧
      h'.OpenAs folders log? ∧ ∀ p ∈ o.reports, ∃ t, Files.Shows p t h'.files := by
  refine leads_writeReports
    (P := fun paths h' => h'.OpenAs folders log? ∧ ∀ p ∈ paths, ∃ t, Files.Shows p t h'.files) ?_ ?_
  · exact fun _ hfiles hlog => ⟨hh.of_same hfiles hlog, List.forall_mem_nil _⟩
  · rintro what path text paths h' - ⟨hh', hpaths⟩
    refine leads_writeReport_writes.mono fun _ h'' hw => ⟨hw.openAs hh', ?_⟩
    have hnew : ∃ t, Files.Shows path t h''.files := hw.imp fun _ => And.left
    refine List.forall_mem_append.2 ⟨fun p hp => ?_, List.forall_mem_singleton.2 hnew⟩
    exact (hpaths p hp).imp fun _ => hw.shows

/-- What the index tells of files is what can be read of them. -/
theorem leads_indexFiles_indexed (x : ArtifactIndex) (paths : List String) :
    Leads anyHost (indexFiles x paths) h fun x' h' => h' = h ∧
      ∃ as, x'.artifacts = x.artifacts ++ as ∧ List.Forall₂ (IsIndexed h.files) paths as := by
  induction paths generalizing x with
  | nil => exact leads_pure ⟨rfl, [], (List.append_nil _).symm, .nil⟩
  | cons path rest ih =>
    have hread : Leads anyHost (attempt (.readFile path)) h fun c h' =>
        h.files.read path = .ok c ∧ h' = h :=
      leads_attempt (fun c _ hserve => ⟨congrArg Prod.fst hserve, (congrArg Prod.snd hserve).symm⟩)
        fun _ _ _ => trivial
    refine hread.bind ?_
    rintro c _ ⟨hc, rfl⟩
    refine (ih _).mono ?_
    rintro x' _ ⟨rfl, as, hx', has⟩
    refine ⟨rfl, _ :: as, ?_, .cons ⟨c, hc, rfl⟩ has⟩
    rw [hx', ArtifactIndex.add, List.append_assoc, List.singleton_append]

theorem leads_writeIndex_indexed (hindex : o.artifactIndex = some index) (runId : String)
    (paths : List String) :
    Leads anyHost (writeIndex o runId paths) h fun _ h' => o.output ≠ none ∧
      ∃ x : ArtifactIndex, Host.Writes index x.jsonText h h' ∧
        List.Forall₂ (IsIndexed h.files) paths x.artifacts := by
  unfold writeIndex
  rw [hindex]
  dsimp only
  split
  · exact leads_throw_bind trivial
  · rename_i hsome
    refine leads_wallTime_same.bind ?_
    rintro now h₀ ⟨hfiles, hlog⟩
    refine (leads_indexFiles_indexed _ paths).bind ?_
    rintro x _ ⟨rfl, as, hx, has⟩
    rw [hfiles] at has
    refine leads_writeReport_writes.mono fun _ h' hw => ?_
    exact ⟨by simpa using hsome, x, hw.of_same hfiles hlog rfl rfl, by rwa [hx]⟩

theorem leads_endLog_openAs {log : Option Emitter} (hh : h.OpenAs folders log?)
    (hlog : log.isSome = log?.isSome) (start : Nat) (paths : List String) :
    Leads anyHost (endLog log start paths) h fun _ h' =>
      h'.OpenAs folders none ∧ Host.KeepsOthers log? h h' := by
  cases log with
  | none =>
    have hnone : log? = none := by simpa using hlog.symm
    exact leads_pure ⟨hnone ▸ hh, fun _ _ => rfl⟩
  | some log =>
    refine leads_wallTime_same.bind ?_
    rintro now h₀ ⟨hfiles₀, hlog₀⟩
    have hh₀ := hh.of_same hfiles₀ hlog₀
    refine (leads_ask (P := fun _ h' => h'.files = h₀.files ∧ h'.OpenAs folders log?)
      ⟨rfl, hh₀.of_same rfl rfl⟩).bind ?_
    rintro stop h₁ ⟨hfiles, hh₁⟩
    simp only [Emitter.entry, Emitter.nextTraceId]
    refine (leads_writeEntry
      (P := fun _ h' => h'.OpenAs folders log? ∧ Host.KeepsOthers log? h₁ h') ?_ ?_ ?_ ?_).bind ?_
    · exact traceId_ne_empty _ _ _
    · exact Option.some_ne_none _
    · exact fun _ ht => hh₁.takes ht
    · exact fun _ _ => trivial
    rintro _ h₂ ⟨hh₂, hkept⟩
    refine leads_attempt (fun _ h' hserve => ?_) fun _ _ _ => trivial
    obtain ⟨hclosed, hkept'⟩ := hh₂.closeLog hserve
    refine ⟨hclosed, fun name hname => ?_⟩
    rw [hkept' name hname, hkept name hname, hfiles, hfiles₀]

/-! ### Different targets -/

/-- What a path leads to that is not the log is there when the log is closed. -/
theorem shows_of_closed {f f' : Files} {path : String} {t : Files.Target}
    (hshows : Files.Shows path t f) (hfolders : f'.folders = f.folders)
    (hopened : f'.opened ++ log?.toList = f.opened) (hne : some t ≠ log?)
    (hfind : ∀ name, t = .file name → f'.find? name = f.find? name) :
    Files.Shows path t f' ∧ f'.read path = f.read path := by
  have hresolve : f'.resolve .new path = .ok t := by
    cases log? with
    | none =>
      have heq : f'.opened = f.opened := (List.append_nil _).symm.trans hopened
      exact Files.resolve_new_of_extends ⟨hfolders, heq ▸ List.prefix_rfl⟩ hshows.resolve
    | some d =>
      exact Files.resolve_of_opened_append hfolders hopened (fun heq => hne (by rw [heq]))
        hshows.resolve
  have hshows' : Files.Shows path t f' :=
    ⟨hresolve, fun name hname => by rw [hfind name hname]; exact hshows.there name hname⟩
  refine ⟨hshows', ?_⟩
  rw [hshows'.read, hshows.read]
  cases t with
  | file name => rw [Files.content, Files.content, hfind name rfl]
  | null | full | stream => rfl

theorem targets_distinct {f : Files} {target : Files.Target} (hindex : o.artifactIndex = some index)
    (htarget : (o.openFiles f).resolve .new index = .ok target) (hdistinct : (o.targets f).Nodup) :
    some target ≠ o.logTarget? f ∧ ∀ p ∈ o.reports, ∀ t,
      (o.openFiles f).resolve .new p = .ok t → t ≠ target ∧ some t ≠ o.logTarget? f := by
  have hsome : ((o.openFiles f).resolve .new index).toOption = some target := by rw [htarget]; rfl
  unfold RunOptions.targets at hdistinct
  rw [hindex, List.filterMap_append, Option.toList_some, List.filterMap_cons, hsome,
    List.filterMap_nil] at hdistinct
  obtain ⟨hpaths, -, hlog⟩ := List.nodup_append'.1 hdistinct
  obtain ⟨-, -, hreports⟩ := List.nodup_append'.1 hpaths
  let reported := o.reports.filterMap fun p => ((o.openFiles f).resolve .new p).toOption
  have hnot : ∀ t ∈ reported ++ [target], some t ≠ o.logTarget? f := by
    intro t ht heq
    exact hlog ht (by simp [← heq])
  refine ⟨hnot target (by simp), fun p hp t ht => ?_⟩
  have hmem : t ∈ reported := List.mem_filterMap.2 ⟨p, hp, by rw [ht]; rfl⟩
  refine ⟨?_, hnot t (List.mem_append_left _ hmem)⟩
  rintro rfl
  exact hreports hmem (List.mem_singleton_self _)

/-! ### A benchmark -/

/-- What is written after the reports were looked at is the index and the log, and neither is a
report. -/
theorem indexed_of_closed {f : Files} {h₁ h' : Host} {name : String} {x : ArtifactIndex}
    (hh : h.OpenAs f.folders (o.logTarget? f)) (hopened : f.opened = Files.standardTargets)
    (hindex : o.artifactIndex = some index)
    (htarget : (o.openFiles f).resolve .new index = .ok (.file name))
    (hdistinct : (o.targets f).Nodup) (hshows : ∀ p ∈ o.reports, ∃ t, Files.Shows p t h.files)
    (hwrites : Host.Writes index x.jsonText h h₁) (hclosed : h'.OpenAs f.folders none)
    (hkept : Host.KeepsOthers (o.logTarget? f) h₁ h')
    (hindexed : List.Forall₂ (IsIndexed h.files) o.reports x.artifacts) :
    h'.files.read index = .ok (.ofText x.jsonText) ∧
      List.Forall₂ (IsIndexed h'.files) o.reports x.artifacts := by
  obtain ⟨hname, hreports⟩ := targets_distinct hindex htarget hdistinct
  have hsame : (o.openFiles f).opened = h.files.opened := by
    rw [RunOptions.openFiles, hopened, hh.opened]
  have hlead : ∀ {p t}, h.files.resolve .new p = .ok t → (o.openFiles f).resolve .new p = .ok t :=
    Files.resolve_new_of_extends ⟨hh.folders.symm, hsame ▸ List.prefix_rfl⟩
  obtain ⟨t, hshows₁, hs, hcontent⟩ := hwrites
  have ht : t = .file name := by
    have hresolve : h.files.resolve .new index = .ok t :=
      Files.resolve_new_of_extends ⟨hs.folders.symm, hs.opened ▸ List.prefix_rfl⟩ hshows₁.resolve
    exact Except.ok.inj ((hlead hresolve).symm.trans htarget)
  subst ht
  have hfolders : h'.files.folders = h.files.folders := hclosed.folders.trans hh.folders.symm
  have hend : h'.files.opened ++ (o.logTarget? f).toList = h.files.opened := by
    rw [hclosed.opened, hh.opened, Option.toList_none, List.append_nil]
  constructor
  · obtain ⟨-, hread⟩ := shows_of_closed hshows₁ (hfolders.trans hs.folders.symm)
      (hend.trans hs.opened.symm) hname (by rintro _ ⟨⟩; exact hkept name hname)
    rw [hread, hshows₁.read, Files.content, hcontent name rfl]
    rfl
  · have hsameRead : ∀ p ∈ o.reports, h'.files.read p = h.files.read p := by
      intro p hp
      obtain ⟨t, hp'⟩ := hshows p hp
      obtain ⟨hne, hlog⟩ := hreports p hp t (hlead hp'.resolve)
      refine (shows_of_closed hp' hfolders hend hlog ?_).2
      rintro other rfl
      rw [hkept other hlog, hs.find? other hne]
    refine ((List.forall₂_and_left _ _).2 ⟨hsameRead, hindexed⟩).imp ?_
    rintro p a ⟨hp, c, hc, ha⟩
    exact ⟨c, hp.trans hc, ha⟩

theorem leads_run_indexed {settings : Settings} {name : String} (hclosed : h.log = none)
    (hopened : h.files.opened = Files.standardTargets) (hindex : o.artifactIndex = some index)
    (htarget : (o.openFiles h.files).resolve .new index = .ok (.file name))
    (hdistinct : (o.targets h.files).Nodup) :
    Leads anyHost (CommandLine.run settings o) h fun _ h' => o.output ≠ none ∧
      ∃ x : ArtifactIndex, h'.files.read index = .ok (.ofText x.jsonText) ∧
        List.Forall₂ (IsIndexed h'.files) o.reports x.artifacts := by
  unfold CommandLine.run
  rcases planOf_cases o with ⟨t, ht⟩ | ⟨plan, hplan, hlengths⟩
  · rw [ht]
    exact leads_throw_bind trivial
  rw [hplan]
  refine (leads_pure (P := fun p h' => p = plan ∧ h' = h) ⟨rfl, rfl⟩).bind ?_
  rintro plan h ⟨rfl, rfl⟩
  have hname : Leads anyHost (nameRun settings) h
      fun _ h' => h'.files = h.files ∧ h'.log = h.log :=
    leads_wallTime_same.bind fun _ _ hsame => leads_pure hsame
  refine hname.bind ?_
  rintro runId h₀ ⟨hfiles₀, hlog₀⟩
  rw [← hfiles₀] at hopened htarget hdistinct
  rw [← hlog₀] at hclosed
  let isOpen := Host.OpenAs h₀.files.folders (o.logTarget? h₀.files)
  refine (leads_beginLog_openAs hclosed hopened runId).bind ?_
  rintro log h₁ ⟨hh₁, hlog⟩
  refine (leads_ask (P := fun _ => isOpen) (hh₁.of_same rfl rfl)).bind fun start h₂ hh₂ => ?_
  refine (leads_report (P := fun _ => isOpen) fun _ => hh₂.of_same).bind ?_
  intro _ h₃ hh₃
  extract_lets _ workbench
  have hbench : workbench.runId? = log.map (·.runId) := rfl
  refine (leads_doTask (writes_run hlengths) hbench (fun _ _ _ _ => trivial)
    fun _ _ => trivial).bind ?_
  rintro ⟨measurements, b⟩ h₄ ⟨added, ht, hsame, -, -⟩
  have hh₄ := (hh₃.takes ht).1
  -- the workbench hands the emitter on, so the log is ended if and only if it was begun
  have hkept : b.log.isSome = (o.logTarget? h₀.files).isSome := by
    rw [← hlog, ← Option.isSome_map, ← Option.isSome_map (x := log)]
    exact congrArg Option.isSome hsame
  refine (leads_timestamp _ (P := fun _ => isOpen) fun _ _ => hh₄.of_same).bind
    fun timestamp h₅ hh₅ => ?_
  refine (leads_writeReports_openAs hh₅ _).bind ?_
  rintro _ h₆ ⟨rfl, hh₆, hshows⟩
  refine (leads_writeIndex_indexed hindex runId _).bind ?_
  rintro _ h₇ ⟨houtput, x, hwrites, hindexed⟩
  refine (leads_endLog_openAs (hwrites.openAs hh₆) hkept start _).bind ?_
  rintro _ h' ⟨hend, hothers⟩
  exact leads_pure ⟨houtput, x, indexed_of_closed hh₆ hopened hindex htarget hdistinct hshows hwrites
    hend hothers hindexed⟩

end

/-! ### The index that is left -/

section
variable {settings : Settings} {words : List String} {o : RunOptions} {h : Host}
  {index name : String}

theorem exists_index (hwords : Demand.ofWords words = .perform (.run o)) (hclosed : h.log = none)
    (hopened : h.files.opened = Files.standardTargets) (hindex : o.artifactIndex = some index)
    (htarget : (o.openFiles h.files).resolve .new index = .ok (.file name))
    (hdistinct : (o.targets h.files).Nodup)
    (hwell : ((CommandLine.program settings words).run h).1 = .status 0) :
    let files := ((CommandLine.program settings words).run h).2.files
    ∃ output, ∃ x : ArtifactIndex, o.output = some output ∧
      files.read index = .ok (.ofText x.jsonText) ∧
      List.Forall₂ (IsIndexed files) (output :: o.markdown.toList) x.artifacts := by
  intro files
  have hrun : Leads anyHost ((Command.run o).perform settings) h _ :=
    leads_run_indexed hclosed hopened hindex htarget hdistinct
  rcases hrun.program hwords with ⟨ending, h', hout, houtput, x, hread, hindexed⟩ | ⟨t, h', hout, -⟩
  · obtain ⟨output, houtput⟩ := Option.ne_none_iff_exists'.1 houtput
    have hfiles : files = h'.files := congrArg (fun r => r.2.files) hout
    rw [hfiles]
    rw [RunOptions.reports, houtput] at hindexed
    exact ⟨output, x, houtput, hread, hindexed⟩
  · exact absurd ((congrArg Prod.fst hout).symm.trans hwell) (conclude_cases t h').1

theorem isIntact_of_isIndexed {f : Files} {paths : List String} {as : List Artifact}
    {read : String → Except FileError Content} (h : List.Forall₂ (IsIndexed f) paths as)
    (hsame : ∀ path ∈ paths, read path = f.read path) :
    ∀ a ∈ as, ∃ c, read a.path = .ok c ∧ a.isIntact c := by
  induction h with
  | nil => exact List.forall_mem_nil _
  | cons hfirst _ ih =>
    obtain ⟨c, hc, rfl⟩ := hfirst
    obtain ⟨hpath, hrest⟩ := List.forall_mem_cons.1 hsame
    refine List.forall_mem_cons.2 ⟨⟨c, hpath.trans hc, ?_⟩, ih hrest⟩
    simp [Artifact.isIntact, Artifact.ofContent]

/-- The kinds in an index are those of the options by which the reports were asked for, if and only
if the endings of their paths say so. -/
theorem kinds_iff {f : Files} {output : String} {markdown : Option String} {as : List Artifact}
    (h : List.Forall₂ (IsIndexed f) (output :: markdown.toList) as) :
    as.map (·.kind) = "json_report" :: markdown.toList.map (fun _ => "markdown_report") ↔
      extension? output ≠ some "md" ∧ ∀ path ∈ markdown, extension? path = some "md" := by
  have hkind : ∀ {path a}, IsIndexed f path a → a.kind = artifactKind path := by
    rintro path _ ⟨c, -, rfl⟩
    rfl
  have hjson : ∀ path, artifactKind path = "json_report" ↔ extension? path ≠ some "md" := by
    intro path
    unfold artifactKind
    split_ifs with hmd <;> simp [hmd]
  have hmarkdown : ∀ path, artifactKind path = "markdown_report" ↔ extension? path = some "md" := by
    intro path
    unfold artifactKind
    split_ifs with hmd <;> simp [hmd]
  obtain ⟨a, as, ha, has, rfl⟩ := List.forall₂_cons_left_iff.1 h
  cases markdown with
  | none =>
    obtain rfl := List.forall₂_nil_left_iff.1 has
    simp [hkind ha, hjson]
  | some path =>
    obtain ⟨b, bs, hb, hbs, rfl⟩ := List.forall₂_cons_left_iff.1 has
    obtain rfl := List.forall₂_nil_left_iff.1 hbs
    simp [hkind ha, hkind hb, hjson, hmarkdown]

/-- A benchmark that ends well leaves the index it was asked for, if what it writes leads to
different targets and the index to a file. The index tells of the report and then of the markdown
report, if there is one, what they hold at the end, by digest and size, and of nothing else; so nothing
is stale as long as that is what can be read of them. The kinds it tells follow the endings of the
paths. -/
theorem index_tells (hwords : Demand.ofWords words = .perform (.run o)) (hclosed : h.log = none)
    (hopened : h.files.opened = Files.standardTargets) (hindex : o.artifactIndex = some index)
    (htarget : (o.openFiles h.files).resolve .new index = .ok (.file name))
    (hdistinct : (o.targets h.files).Nodup)
    (hwell : ((CommandLine.program settings words).run h).1 = .status 0) :
    let files := ((CommandLine.program settings words).run h).2.files
    ∃ output, ∃ x : ArtifactIndex, o.output = some output ∧
      files.read index = .ok (.ofText x.jsonText) ∧
      List.Forall₂ (IsIndexed files) (output :: o.markdown.toList) x.artifacts ∧
      (x.artifacts.map (·.kind) = "json_report" :: o.markdown.toList.map (fun _ => "markdown_report") ↔
        extension? output ≠ some "md" ∧ ∀ path ∈ o.markdown, extension? path = some "md") ∧
      ∀ read, (∀ path ∈ output :: o.markdown.toList, read path = files.read path) →
        x.stale read = .ok [] := by
  intro files
  obtain ⟨output, x, houtput, hread, hindexed⟩ :=
    exists_index hwords hclosed hopened hindex htarget hdistinct hwell
  refine ⟨output, x, houtput, hread, hindexed, kinds_iff hindexed, fun read hsame => ?_⟩
  exact ArtifactIndex.stale_eq_nil (isIntact_of_isIndexed hindexed hsame)

theorem index_tells_two :
    let settings : Settings := { processId := "7" }
    let words := ["run", "--shapes", "noop", "--lengths", "0", "--warmup-iters", "0", "--samples", "1",
      "--iters", "1", "--output", "o.json", "--markdown", "m.md", "--artifact-index", "i.json"]
    let h : Host := { wall := { seconds := 0 }, clock := { ticks := #[1000] } }
    let out := (CommandLine.program settings words).run h
    out.1 = .status 0 ∧ ∃ x : ArtifactIndex, out.2.files.read "i.json" = .ok (.ofText x.jsonText) ∧
      x.artifacts.map (·.kind) = ["json_report", "markdown_report"] ∧
      x.stale out.2.files.read = .ok [] := by
  intro settings words h out
  have hwords : Demand.ofWords words = .perform (.run ⟨"noop", "0", "ascending", "0xDEAD_BEEF", 0, 1,
      1, some "o.json", some "m.md", none, some "i.json", none⟩) := by decide +kernel
  have hwell : out.1 = .status 0 := by decide +kernel
  obtain ⟨output, x, houtput, hread, -, hkinds, hstale⟩ :=
    @index_tells settings words _ h "i.json" "i.json" hwords rfl rfl rfl (by decide +kernel)
      (by decide +kernel) hwell
  obtain rfl := Option.some.inj houtput
  refine ⟨hwell, x, hread, hkinds.2 ⟨by decide, ?_⟩, hstale _ fun _ _ => rfl⟩
  rintro _ ⟨⟩
  decide

/-- The report of a run is no markdown, whatever the ending of its path. -/
theorem output_indexed_as_markdown :
    let settings : Settings := { processId := "7" }
    let words := ["run", "--shapes", "noop", "--lengths", "0", "--warmup-iters", "0", "--samples", "1",
      "--iters", "1", "--output", "r.md", "--artifact-index", "i.json"]
    let h : Host := { wall := { seconds := 0 }, clock := { ticks := #[1000] } }
    let out := (CommandLine.program settings words).run h
    out.1 = .status 0 ∧ ∃ x : ArtifactIndex, out.2.files.read "i.json" = .ok (.ofText x.jsonText) ∧
      x.artifacts.map (fun a => (a.path, a.kind)) = [("r.md", "markdown_report")] := by
  intro settings words h out
  have hwords : Demand.ofWords words = .perform (.run ⟨"noop", "0", "ascending", "0xDEAD_BEEF", 0, 1,
      1, some "r.md", none, none, some "i.json", none⟩) := by decide +kernel
  have hwell : out.1 = .status 0 := by decide +kernel
  obtain ⟨output, x, houtput, hread, hindexed⟩ :=
    @exists_index settings words _ h "i.json" "i.json" hwords rfl rfl rfl (by decide +kernel)
      (by decide +kernel) hwell
  obtain rfl := Option.some.inj houtput
  obtain ⟨_, as, ⟨c, -, rfl⟩, has, hartifacts⟩ := List.forall₂_cons_left_iff.1 hindexed
  obtain rfl := List.forall₂_nil_left_iff.1 has
  have hkind : artifactKind "r.md" = "markdown_report" := by decide
  refine ⟨hwell, x, hread, ?_⟩
  rw [hartifacts, ← hkind]
  rfl

end

end CommandLine
end CallBridge
