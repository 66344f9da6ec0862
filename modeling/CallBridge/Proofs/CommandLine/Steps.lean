import CallBridge.CommandLine.Commands
import CallBridge.Proofs.Bench.Lines

/-!
# Steps of a command

What a step leads to on a host (`Step.Leads`), with a rule for each way to put steps together and for
each request. A benchmark is a step like any other (`leads_doTask`); reading its plan asks the host
for nothing (`planOf_cases`).
-/

namespace CallBridge

/-! ### Plans that are read -/

theorem Text.lt_of_readDigits {radix limit m n : Nat} {s : List Char} (hm : m < limit)
    (h : readDigits radix limit m s = .ok n) : n < limit := by
  induction s generalizing m with
  | nil =>
    obtain rfl := Except.ok.inj h
    exact hm
  | cons c rest ih =>
    unfold readDigits at h
    split at h
    · cases h
    · split_ifs at h with hnext
      exact ih hnext h

theorem Text.lt_of_readNumber {radix limit n : Nat} {s : List Char} (hlimit : 0 < limit)
    (h : readNumber radix limit s = .ok n) : n < limit := by
  unfold readNumber at h
  split at h
  · cases h
  · cases h
  · exact lt_of_readDigits hlimit h
  · exact lt_of_readDigits hlimit h

theorem Bench.lt_of_readLength {s : String} {n : Nat} (h : readLength s = .ok n) :
    n < lengthLimit := by
  unfold readLength at h
  split at h
  · rename_i m hread
    obtain rfl := Except.ok.inj h
    exact Text.lt_of_readNumber (Nat.two_pow_pos 64) hread
  · cases h

theorem Bench.lt_of_readLengths {s : String} {ns : List Nat} (h : readLengths s = .ok ns) :
    ∀ n ∈ ns, n < lengthLimit := by
  have hitems : ∀ {items : List String} {ns : List Nat}, items.mapM readLength = .ok ns →
      ∀ n ∈ ns, n < lengthLimit := by
    intro items
    induction items with
    | nil =>
      rintro _ ⟨⟩
      exact List.forall_mem_nil _
    | cons item rest ih =>
      intro ns h
      rw [List.mapM_cons] at h
      cases hitem : readLength item with
      | error e => rw [hitem] at h; cases h
      | ok m =>
        cases hrest : rest.mapM readLength with
        | error e => rw [hitem, hrest] at h; cases h
        | ok ms =>
          rw [hitem, hrest] at h
          obtain rfl := Except.ok.inj h
          exact List.forall_mem_cons.2 ⟨lt_of_readLength hitem, ih hrest⟩
  unfold readLengths at h
  cases hread : (Text.items s).mapM readLength with
  | error e => rw [hread] at h; cases h
  | ok ms =>
    rw [hread] at h
    by_cases hempty : ms.isEmpty
    · rw [show (Except.ok ms >>= _ : Except RunError (List Nat)) = _ from if_pos hempty] at h
      cases h
    · rw [show (Except.ok ms >>= _ : Except RunError (List Nat)) = _ from if_neg hempty] at h
      obtain rfl := Except.ok.inj h
      exact hitems hread

namespace CommandLine
open Bench Diagnostic

theorem planOf_eq {o : RunOptions} {shapes : List CallShape} {lengths : List Nat}
    {input : Arrangement} {n : UInt64} (hshapes : CallShape.readList o.shapes = .ok shapes)
    (hlengths : readLengths o.lengths = .ok lengths) (hinput : Arrangement.read o.input = .ok input)
    (hseed : readSeed o.seed = .ok n) : planOf o =
      pure { shapes, lengths, input, seed := n, sizing := ⟨o.warmup, o.samples, o.calls⟩ } := by
  unfold planOf Step.ofResult seed
  rw [hshapes, hlengths, hinput, hseed]
  rfl

theorem planOf_cases (o : RunOptions) : (∃ t, planOf o = throw t) ∨
    ∃ plan, planOf o = pure plan ∧ ∀ n ∈ plan.lengths, n < lengthLimit := by
  unfold planOf Step.ofResult seed
  cases CallShape.readList o.shapes with
  | error e => exact .inl ⟨_, rfl⟩
  | ok shapes =>
    cases hlengths : readLengths o.lengths with
    | error e => exact .inl ⟨_, rfl⟩
    | ok lengths =>
      cases Arrangement.read o.input with
      | error e => exact .inl ⟨_, rfl⟩
      | ok input =>
        cases readSeed o.seed with
        | error e => exact .inl ⟨_, rfl⟩
        | ok seed => exact .inr ⟨_, rfl, lt_of_readLengths hlengths⟩

/-! ### Where steps lead -/

namespace Step
variable {α β : Type} {failed : Host → Prop} {h : Host} {P : α → Host → Prop}
  {Q : β → Host → Prop}

/-- The step leads to a result, and a host that `P` holds of, or to a trouble, and a host that
`failed` holds of. -/
def Leads (failed : Host → Prop) (x : Step α) (h : Host) (P : α → Host → Prop) : Prop :=
  ∃ r h', (ExceptT.run x).run h = (r, h') ∧ match r with
    | .ok a => P a h'
    | .error _ => failed h'

theorem leads_pure {a : α} (ha : P a h) : Leads failed (pure a) h P := ⟨.ok a, h, rfl, ha⟩

theorem leads_throw {t : Trouble} (hfailed : failed h) : Leads failed (throw t) h P :=
  ⟨.error t, h, rfl, hfailed⟩

/-- Nothing comes after a trouble. -/
theorem leads_throw_bind {t : Trouble} {f : α → Step β} (hfailed : failed h) :
    Leads failed (throw t >>= f) h Q := ⟨.error t, h, rfl, hfailed⟩

theorem Leads.bind {x : Step α} {f : α → Step β} (hx : Leads failed x h P)
    (hf : ∀ a h', P a h' → Leads failed (f a) h' Q) : Leads failed (x >>= f) h Q := by
  obtain ⟨r, h₁, hrun, hr⟩ := hx
  have hbind : (ExceptT.run (x >>= f)).run h = _ := Program.run_bind (ExceptT.run x) _ h
  rw [hrun] at hbind
  cases r with
  | error t => exact ⟨.error t, h₁, hbind, hr⟩
  | ok a =>
    obtain ⟨r', h₂, hrun', hr'⟩ := hf a h₁ hr
    exact ⟨r', h₂, hbind.trans hrun', hr'⟩

theorem Leads.mono {x : Step α} {P' : α → Host → Prop} (hx : Leads failed x h P)
    (hP : ∀ a h', P a h' → P' a h') : Leads failed x h P' := by
  obtain ⟨r, h', hrun, hr⟩ := hx
  refine ⟨r, h', hrun, ?_⟩
  cases r with
  | error t => exact hr
  | ok a => exact hP a h' hr

theorem Leads.of_failed {x : Step α} {failed' : Host → Prop} (hx : Leads failed x h P)
    (hfailed : ∀ h', failed h' → failed' h') : Leads failed' x h P := by
  obtain ⟨r, h', hrun, hr⟩ := hx
  refine ⟨r, h', hrun, ?_⟩
  cases r with
  | error t => exact hfailed h' hr
  | ok a => exact hr

theorem leads_lift {p : Program α} (ha : P (p.run h).1 (p.run h).2) :
    Leads failed (ExceptT.lift p) h P := by
  have hlift : (ExceptT.run (ExceptT.lift p : Step α)).run h = _ := Program.run_bind p _ h
  exact ⟨_, _, hlift, ha⟩

theorem leads_ask {r : Request α} (ha : P (h.serve r).1 (h.serve r).2) :
    Leads failed (ask r) h P := leads_lift ha

theorem leads_attempt {r : Request (Except FileError α)}
    (hok : ∀ a h', h.serve r = (.ok a, h') → P a h')
    (herror : ∀ e h', h.serve r = (.error e, h') → failed h') : Leads failed (attempt r) h P := by
  refine (leads_ask (P := fun result h' => h.serve r = (result, h')) rfl).bind ?_
  rintro (e | a) h' hserve
  · exact leads_throw (herror e h' hserve)
  · exact leads_pure (hok a h' hserve)

theorem leads_ofResult {r : Except RunError α} (hok : ∀ a, r = .ok a → P a h)
    (herror : ∀ e, r = .error e → failed h) : Leads failed (ofResult r) h P := by
  cases r with
  | error e => exact leads_throw (herror e rfl)
  | ok a => exact leads_pure (hok a rfl)

theorem leads_report {line : String} {P : Unit → Host → Prop}
    (hP : ∀ h' : Host, h'.files = h.files → h'.log = h.log → P () h') :
    Leads failed (report line) h P := leads_ask (hP _ rfl rfl)

theorem leads_wallTime {P : WallTime → Host → Prop}
    (hP : ∀ now (h' : Host), h'.files = h.files → h'.log = h.log → P now h') :
    Leads failed (ask .wallTime) h P := leads_ask (hP _ _ rfl rfl)

theorem leads_wallTime_same :
    Leads failed (ask .wallTime) h fun _ h' => h'.files = h.files ∧ h'.log = h.log :=
  leads_wallTime fun _ _ => And.intro

/-- A loop whose turns leave the files and the log as they are does so too. -/
theorem leads_forIn {γ : Type} (xs : List γ) {turn : γ → Step (ForInStep PUnit)}
    {P : PUnit → Host → Prop} (hturn : ∀ x h, Leads failed (turn x) h fun next h' =>
      next = .yield PUnit.unit ∧ h'.files = h.files ∧ h'.log = h.log)
    (hP : ∀ h' : Host, h'.files = h.files → h'.log = h.log → P () h') :
    Leads failed (forIn xs PUnit.unit fun x _ => turn x) h P := by
  induction xs generalizing h with
  | nil => exact leads_pure (hP h rfl rfl)
  | cons x rest ih =>
    rw [List.forIn_cons]
    refine (hturn x h).bind ?_
    rintro _ h' ⟨rfl, hfiles, hlog⟩
    exact ih fun h'' hfiles' hlog' => hP h'' (hfiles'.trans hfiles) (hlog'.trans hlog)

theorem leads_reports {γ : Type} (text : γ → String) (xs : List γ) {P : PUnit → Host → Prop}
    (hP : ∀ h' : Host, h'.files = h.files → h'.log = h.log → P () h') :
    Leads failed (forIn xs PUnit.unit fun x _ => do
      report (text x)
      return .yield PUnit.unit) h P := by
  refine leads_forIn xs (fun x h => ?_) hP
  exact (leads_report fun _ => And.intro).bind fun _ _ hsame => leads_pure ⟨rfl, hsame⟩

end Step

open CallBridge.CommandLine.Step

section
variable {failed : Host → Prop} {h : Host}

theorem leads_writeNotices (settings : Settings) (notices : List Notice) {P : PUnit → Host → Prop}
    (hP : ∀ h' : Host, h'.files = h.files → h'.log = h.log → P () h') :
    Leads failed (writeNotices settings notices) h P := by
  refine (leads_forIn _ (P := P) (fun n h => ?_) hP).bind fun _ _ => leads_pure
  refine leads_wallTime_same.bind ?_
  rintro now h₁ ⟨hfiles, hlog⟩
  refine (leads_report (P := fun _ h' => h'.files = h₁.files ∧ h'.log = h₁.log)
    fun _ => And.intro).bind ?_
  rintro _ h₂ ⟨hfiles', hlog'⟩
  exact leads_pure ⟨rfl, hfiles'.trans hfiles, hlog'.trans hlog⟩

theorem leads_timestamp (given : Option String) {P : String → Host → Prop}
    (hP : ∀ text (h' : Host), h'.files = h.files → h'.log = h.log → P text h') :
    Leads failed (timestamp given) h P := by
  cases given with
  | some text => exact leads_pure (hP text h rfl rfl)
  | none => exact (leads_wallTime fun _ => hP _).bind fun _ _ => leads_pure

/-- An entry that was begun is written as it is, unless the host refuses its line. -/
theorem leads_writeEntry {log : Log.Emitter} {e : Log.Entry} (hid : e.traceId ≠ "")
    (hkind : e.runKind ≠ none) {P : Log.Emitter → Host → Prop}
    (hok : ∀ h', h.Takes [e.line] h' → P (log.write e) h')
    (herror : h.Refuses → ∀ h', failed h') : Leads failed (writeEntry log e) h P := by
  unfold writeEntry
  rw [log.complete_of_begun hid hkind]
  refine (leads_attempt (P := fun _ h' => h.Takes [e.line] h') ?_ ?_).bind ?_
  · rintro ⟨⟩ h' happend
    exact .line happend
  · rintro error h' happend
    exact herror ⟨[], h, e.line, error, .refl h, congrArg Prod.fst happend⟩ h'
  · exact fun _ h' ht => leads_pure (hok h' ht)

/-- A task is a step: the host takes the lines of its entries. -/
theorem leads_doTask {α : Type} {run : Option String} {b : Workbench Unit} {task : Task Unit α}
    {P : α → List Log.Entry → Prop} (htask : task.Writes run P) (hb : b.runId? = run)
    (herror : ∀ h' (added : List Log.Entry), h.Takes (added.map (·.line)) h' →
      (ArePlain run → ∀ e ∈ added, e.Lawful) → failed h')
    (hrefuses : h.Refuses → ∀ h', failed h') :
    Leads failed (doTask b task) h fun out h' => ∃ added, h.Takes (added.map (·.line)) h' ∧
      out.2.runId? = run ∧ (ArePlain run → ∀ e ∈ added, e.Lawful) ∧ P out.1 added := by
  obtain ⟨r, b', h', hrun, hr⟩ := htask b h hb
  have hlift : Leads failed (ExceptT.lift (task b)) h fun out h₁ => out = (r, b') ∧ h₁ = h' :=
    leads_lift (by rw [hrun]; exact ⟨rfl, rfl⟩)
  refine hlift.bind ?_
  rintro _ h' ⟨rfl, rfl⟩
  cases r with
  | error e =>
    refine leads_throw_bind ?_
    rcases hr with ⟨added, ht, -, hlawful, -⟩ | ⟨-, hrefused⟩
    · exact herror h' added ht hlawful
    · exact hrefuses hrefused h'
  | ok a =>
    obtain ⟨added, ht, hsame, hlawful, hP⟩ := hr.resolve_right fun h => nomatch h.1
    exact leads_pure ⟨added, ht, hsame, hlawful, hP a rfl⟩

theorem leads_writeReport {what path text : String} {P : Unit → Host → Prop}
    (hok : ∀ h₁ h' : Host, h.writeFile path text = (.ok (), h₁) → h'.files = h₁.files →
      h'.log = h₁.log → P () h')
    (herror : ∀ e h', h.writeFile path text = (.error e, h') → failed h') :
    Leads failed (writeReport what path text) h P := by
  have hwritten : Leads failed (attempt (.writeFile path text)) h
      fun _ h₁ => h.writeFile path text = (.ok (), h₁) :=
    leads_attempt (fun ⟨⟩ _ hwrite => hwrite) herror
  exact hwritten.bind fun _ h₁ hwrite => leads_report fun h' => hok h₁ h' hwrite

/-- The paths a benchmark writes its reports to. -/
def RunOptions.reports (o : RunOptions) : List String := o.output.toList ++ o.markdown.toList

/-- The reports are written one after the other, after a print if the first goes to no file. -/
theorem leads_writeReports {o : RunOptions} {r : Bench.Report} {P : List String → Host → Prop}
    (hprint : ∀ h' : Host, h'.files = h.files → h'.log = h.log → P [] h')
    (hwrite : ∀ what path text paths h', path ∈ o.reports → P paths h' →
      Leads failed (writeReport what path text) h' fun _ => P (paths ++ [path])) :
    Leads failed (writeReports o r) h fun paths h' => paths = o.reports ∧ P o.reports h' := by
  unfold writeReports
  extract_lets finish rest
  have hmarkdown : ∀ h', P o.output.toList h' →
      Leads failed (rest ()) h' fun paths h' => paths = o.reports ∧ P o.reports h' := by
    intro h' hh'
    unfold rest
    cases hpath : o.markdown with
    | none =>
      have hreports : o.output.toList = o.reports := by simp [RunOptions.reports, hpath]
      exact leads_pure ⟨rfl, hreports ▸ hh'⟩
    | some path =>
      have hreports : o.output.toList ++ [path] = o.reports := by simp [RunOptions.reports, hpath]
      have hmem : path ∈ o.reports := by simp [RunOptions.reports, hpath]
      refine (hwrite _ path _ _ h' hmem hh').bind ?_
      exact fun _ h'' hh'' => leads_pure ⟨rfl, hreports ▸ hh''⟩
  cases hpath : o.output with
  | none =>
    rw [hpath] at hmarkdown
    exact (leads_ask (P := fun _ => P []) (hprint _ rfl rfl)).bind fun _ => hmarkdown
  | some path =>
    rw [hpath] at hmarkdown
    have hmem : path ∈ o.reports := by simp [RunOptions.reports, hpath]
    exact (hwrite _ path _ [] h hmem (hprint h rfl rfl)).bind fun _ => hmarkdown

end

/-! ### How a process ends -/

section
variable {h : Host}

/-- A trouble never ends the process well. It leaves the files as they stand if memory was refused,
and else closes the log. -/
theorem conclude_cases (t : Trouble) (h : Host) : (t.conclude.run h).1 ≠ .status 0 ∧
    ∃ h₁ : Host, h₁.files = h.files ∧ h₁.log = h.log ∧
      ((t.conclude.run h).2.files = h₁.files ∨ (t.conclude.run h).2.files = h₁.closeLog.2.files) := by
  unfold Trouble.conclude
  split
  · exact ⟨nofun, h, rfl, rfl, .inl rfl⟩
  · let h₁ := (h.serve (.report MemoryError.unaddressable.message)).2
    exact ⟨nofun, (h₁.serve (.report breakdownNote)).2, rfl, rfl, .inr rfl⟩
  · exact ⟨nofun, h, rfl, rfl, .inr rfl⟩

theorem closeLog_of_closed (hclosed : h.log = none) : h.closeLog = (.ok (), h) := by
  rw [Host.closeLog, hclosed]

theorem files_conclude_of_closed (t : Trouble) (hclosed : h.log = none) :
    (t.conclude.run h).2.files = h.files := by
  obtain ⟨-, h₁, hfiles, hlog, hend | hend⟩ := conclude_cases t h
  · rw [hend, hfiles]
  · rw [hend, closeLog_of_closed (hlog.trans hclosed), hfiles]

/-- What the words ask for is done, and a trouble is concluded. -/
theorem Step.Leads.program {settings : Settings} {words : List String} {c : Command}
    {failed : Host → Prop} {P : Ending → Host → Prop} (hwords : Demand.ofWords words = .perform c)
    (hc : Leads failed (c.perform settings) h P) :
    (∃ ending h', (CommandLine.program settings words).run h = (ending, h') ∧ P ending h') ∨
      ∃ (t : Trouble) (h' : Host),
        (CommandLine.program settings words).run h = t.conclude.run h' ∧ failed h' := by
  obtain ⟨r, h', hrun, hr⟩ := hc
  unfold CommandLine.program
  rw [hwords]
  dsimp only
  rw [Program.run_bind, hrun]
  cases r with
  | ok ending => exact .inl ⟨ending, h', rfl, hr⟩
  | error t => exact .inr ⟨t, h', rfl, hr⟩

end

end CommandLine
end CallBridge
