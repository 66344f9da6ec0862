import CallBridge.Host.Program
import CallBridge.Proofs.Bench.Obliging
import CallBridge.Proofs.Host.Paths

/-!
# The log of a host

A host takes lines into the log that stands open while it answers other requests (`Host.Takes`). The
log touches nothing but its own target (`Takes.sameBut`). If that is a file, it holds what was handed
over of the text, and the rest is held back (`Host.Records`): no line is refused, and what is handed
over is cut only behind a line or its end (`Records.takes`).
-/

namespace CallBridge

/-! ### Texts as bytes -/

namespace Content

theorem toList_loop (b : ByteArray) (i : Nat) (front : List UInt8) :
    ByteArray.toList.loop b i front = front.reverse ++ b.data.toList.drop i := by
  fun_induction ByteArray.toList.loop b i front with
  | case1 i front hlt ih =>
    have hi : i < b.data.toList.length := by simpa using hlt
    have hget : b.get! i = b.data.toList[i] := by
      obtain ⟨data⟩ := b
      exact getElem!_pos data i (by simpa using hi)
    rw [ih, List.drop_eq_getElem_cons hi, hget, List.reverse_cons, List.append_assoc,
      List.singleton_append]
  | case2 i front hge =>
    have hi : b.data.toList.length ≤ i := by simpa using hge
    rw [List.drop_eq_nil_of_le hi, List.append_nil]

theorem ofText_eq (s : String) : ofText s = s.toByteArray.data.toList := toList_loop ..

theorem ofText_empty : ofText "" = [] := by simp [ofText_eq]

@[simp] theorem ofText_append (s t : String) : ofText (s ++ t) = ofText s ++ ofText t := by
  simp [ofText_eq]

@[simp] theorem length_ofText (s : String) : (ofText s).length = s.utf8ByteSize := by
  simp [ofText_eq]

theorem text?_ofText (s : String) : (ofText s).text? = .ok s := by
  have hbytes : (⟨(ofText s).toArray⟩ : ByteArray) = s.toByteArray := by rw [ofText_eq]
  have hread : String.fromUTF8? s.toByteArray = some s := dif_pos s.isValidUTF8
  rw [text?, hbytes, hread]

end Content

/-! ### What the log touches -/

namespace Host
variable {h h' h₁ h₂ : Host} {d : Files.Target}

/-- Another host, with another content of one target at most. -/
structure SameBut (d : Files.Target) (h h' : Host) : Prop where
  folders : h'.files.folders = h.files.folders
  opened : h'.files.opened = h.files.opened
  find? : ∀ name, .file name ≠ d → h'.files.find? name = h.files.find? name
  target : h'.log.map (·.target) = h.log.map (·.target)

theorem SameBut.of_same (hfiles : h'.files = h.files) (hlog : h'.log = h.log) : SameBut d h h' :=
  ⟨by rw [hfiles], by rw [hfiles], fun _ _ => by rw [hfiles], by rw [hlog]⟩

theorem SameBut.refl (d : Files.Target) (h : Host) : SameBut d h h := .of_same rfl rfl

theorem SameBut.trans (hh : SameBut d h h₁) (hh' : SameBut d h₁ h₂) : SameBut d h h₂ :=
  ⟨hh'.folders.trans hh.folders, hh'.opened.trans hh.opened,
    fun name hname => (hh'.find? name hname).trans (hh.find? name hname), hh'.target.trans hh.target⟩

theorem SameBut.extends (hh : SameBut d h h') : h.files.Extends h'.files :=
  ⟨hh.folders, hh.opened ▸ List.prefix_rfl⟩

theorem sameBut_deliver {p : Piece} (hdeliver : deliver d h p = .ok h') :
    SameBut d h h' ∧ h'.log = h.log := by
  cases d with
  | file name =>
    obtain rfl := Except.ok.inj hdeliver
    refine ⟨⟨rfl, rfl, fun other hother => Files.find?_put_of_ne ?_, rfl⟩, rfl⟩
    exact fun heq => hother (heq ▸ rfl)
  | null =>
    obtain rfl := Except.ok.inj hdeliver
    exact ⟨.refl .., rfl⟩
  | full =>
    simp only [deliver, Files.writeAt] at hdeliver
    split_ifs at hdeliver
    obtain rfl := Except.ok.inj hdeliver
    exact ⟨.refl .., rfl⟩
  | stream s =>
    cases s <;> obtain rfl := Except.ok.inj hdeliver <;>
      exact ⟨⟨rfl, rfl, fun _ _ => rfl, rfl⟩, rfl⟩

theorem sameBut_foldlM {pieces : List Piece} (hdeliver : pieces.foldlM (deliver d) h = .ok h') :
    SameBut d h h' ∧ h'.log = h.log := by
  induction pieces generalizing h with
  | nil =>
    obtain rfl := Except.ok.inj hdeliver
    exact ⟨.refl .., rfl⟩
  | cons p rest ih =>
    rw [List.foldlM_cons] at hdeliver
    cases hp : deliver d h p with
    | error e => rw [hp] at hdeliver; cases hdeliver
    | ok h₁ =>
      rw [hp] at hdeliver
      obtain ⟨hfirst, hlog⟩ := sameBut_deliver hp
      obtain ⟨hrest, hlog'⟩ := ih hdeliver
      exact ⟨hfirst.trans hrest, hlog'.trans hlog⟩

/-- The log that is open, if one is, leads there. -/
def LogsTo (d : Files.Target) (h : Host) : Prop := ∀ o, h.log = some o → o.target = d

theorem SameBut.logsTo (hh : SameBut d h h') (hd : h.LogsTo d) : h'.LogsTo d := by
  intro o ho
  have htarget := hh.target
  rw [ho, Option.map_some] at htarget
  obtain ⟨o', ho', heq⟩ := Option.map_eq_some_iff.1 htarget.symm
  exact heq ▸ hd o' ho'

theorem sameBut_writeLog {text : String} (hd : h.LogsTo d) (hwrite : h.writeLog text = .ok h') :
    SameBut d h h' := by
  unfold writeLog at hwrite
  cases hlog : h.log with
  | none =>
    rw [hlog] at hwrite
    obtain rfl := Except.ok.inj hwrite
    exact .refl ..
  | some o =>
    rw [hlog] at hwrite
    dsimp only at hwrite
    rw [o.target_write, hd o hlog] at hwrite
    cases hfold : (o.write text).1.foldlM (deliver d) h with
    | error e => rw [hfold] at hwrite; cases hwrite
    | ok h₁ =>
      rw [hfold] at hwrite
      obtain rfl := Except.ok.inj hwrite
      obtain ⟨hsame, -⟩ := sameBut_foldlM hfold
      refine ⟨hsame.folders, hsame.opened, hsame.find?, ?_⟩
      simp [hlog, o.target_write]

theorem appendLog_eq_ok_iff {line : String} : h.appendLog line = (.ok (), h') ↔
    ∃ h₁, h.writeLog line = .ok h₁ ∧ h₁.writeLog "\n" = .ok h' := by
  unfold appendLog
  cases hline : h.writeLog line with
  | error e => simp
  | ok h₁ =>
    simp only [Except.ok.injEq, exists_eq_left']
    cases hfeed : h₁.writeLog "\n" <;> simp

/-- A host answers requests and takes lines into the log that stands open. -/
inductive Takes : Host → List String → Host → Prop
  | quiet {h h' : Host} (files : h'.files = h.files) (log : h'.log = h.log) : Takes h [] h'
  | line {h h' : Host} {l : String} (append : h.appendLog l = (.ok (), h')) : Takes h [l] h'
  | trans {h h₁ h₂ : Host} {ls ls' : List String} (first : Takes h ls h₁) (rest : Takes h₁ ls' h₂) :
      Takes h (ls ++ ls') h₂

theorem Takes.refl (h : Host) : Takes h [] h := .quiet rfl rfl

theorem Takes.sameBut {ls : List String} (ht : Takes h ls h') (hd : h.LogsTo d) : SameBut d h h' := by
  induction ht with
  | quiet hfiles hlog => exact .of_same hfiles hlog
  | line happend =>
    obtain ⟨h₁, hline, hfeed⟩ := appendLog_eq_ok_iff.1 happend
    have hfirst := sameBut_writeLog hd hline
    exact hfirst.trans (sameBut_writeLog (hfirst.logsTo hd) hfeed)
  | trans _ _ ihfirst ihrest =>
    have hfirst := ihfirst hd
    exact hfirst.trans (ihrest (hfirst.logsTo hd))

/-! ### A log that is a file -/

/-- Among these folders the log stands open and leads to a file: of its text the file holds the part
that was handed over, and the rest is held back. -/
structure Records (folders : List Files.Place) (name handed text : String) (h : Host) : Prop where
  log : ∃ o, h.log = some o ∧ o.target = .file name ∧ o.place = handed.utf8ByteSize ∧
    handed ++ o.pending = text
  content : h.files.find? name = some (.ofText handed)
  folders : h.files.folders = folders
  opened : h.files.opened = Files.standardTargets ++ [.file name]

section
variable {folders : List Files.Place} {name handed text : String}

theorem Records.of_same (hh : Records folders name handed text h) (hfiles : h'.files = h.files)
    (hlog : h'.log = h.log) : Records folders name handed text h' :=
  ⟨hlog ▸ hh.log, hfiles ▸ hh.content, hfiles ▸ hh.folders, hfiles ▸ hh.opened⟩

/-- A piece for the end of a file is put there. -/
theorem deliver_file (hcontent : h.files.find? name = some (.ofText handed)) (s : String) :
    deliver (.file name) h ⟨handed.utf8ByteSize, s⟩ =
      .ok { h with files := h.files.put name (.ofText (handed ++ s)) } := by
  have hold : h.files.content (.file name) = Content.ofText handed := by
    rw [Files.content, hcontent]
    rfl
  have hlength := Content.length_ofText handed
  have hend : (Content.ofText handed).drop (handed.utf8ByteSize + (Content.ofText s).length) = [] :=
    List.drop_eq_nil_of_le (by omega)
  have hall : (Content.ofText handed).take handed.utf8ByteSize = Content.ofText handed :=
    List.take_of_length_le (by omega)
  simp only [deliver, Files.writeAt, hold, hend, hall, hlength, Nat.sub_self, List.replicate_zero,
    List.append_nil, Content.ofText_append]

/-- What is held back is put at the end when it is handed over. -/
theorem flush_file {o : OpenFile} (hcontent : h.files.find? name = some (.ofText handed))
    (hplace : o.place = handed.utf8ByteSize) (htext : handed ++ o.pending = text) :
    ∃ h', o.flush.1.foldlM (deliver (.file name)) h = .ok h' ∧
      h'.files.find? name = some (.ofText text) ∧
      o.flush.2 = { o with place := text.utf8ByteSize, pending := "" } := by
  subst htext
  unfold OpenFile.flush
  split_ifs with hempty
  · refine ⟨h, rfl, ?_, ?_⟩
    · rw [hcontent, hempty, String.append_empty]
    · rw [hempty, String.append_empty, ← hplace, ← hempty]
  · refine ⟨{ h with files := h.files.put name (.ofText (handed ++ o.pending)) }, ?_,
      Files.find?_put_self .., ?_⟩
    · rw [List.foldlM_cons, hplace, deliver_file hcontent]
      rfl
    · rw [hplace, String.utf8ByteSize_append]

/-- No text is refused; what is handed over is what was before, all of that, or the text as well. -/
theorem Records.writeLog (hh : Records folders name handed text h) (s : String) :
    ∃ h' handed', h.writeLog s = .ok h' ∧ Records folders name handed' (text ++ s) h' ∧
      (handed' = handed ∨ handed' = text ∨ handed' = text ++ s) := by
  obtain ⟨o, hlog, htarget, hplace, htext⟩ := hh.log
  obtain ⟨h₁, hflush, hcontent₁, ho₁⟩ := flush_file hh.content hplace htext
  obtain ⟨hsame, -⟩ := sameBut_foldlM hflush
  have hfolders₁ := hsame.folders.trans hh.folders
  have hopened₁ := hsame.opened.trans hh.opened
  rw [Host.writeLog, hlog]
  dsimp only
  rw [o.target_write, htarget]
  unfold OpenFile.write
  dsimp only
  rw [ho₁]
  split_ifs with hheld hlate
  · refine ⟨_, handed, rfl, ⟨⟨_, rfl, htarget, hplace, ?_⟩, hh.content, hh.folders, hh.opened⟩,
      .inl rfl⟩
    rw [← String.append_assoc, htext]
  · refine ⟨{ h₁ with log := some { o with place := text.utf8ByteSize, pending := "" ++ s } }, text,
      by rw [hflush]; rfl, ⟨⟨_, rfl, htarget, rfl, ?_⟩, hcontent₁, hfolders₁, hopened₁⟩,
      .inr (.inl rfl)⟩
    rw [String.empty_append]
  · have hdeliver := deliver_file hcontent₁ s
    refine ⟨{ h₁ with
      files := h₁.files.put name (.ofText (text ++ s))
      log := some { o with place := text.utf8ByteSize + s.utf8ByteSize, pending := "" } }, text ++ s,
      ?_, ⟨⟨_, rfl, htarget, ?_, String.append_empty⟩, Files.find?_put_self .., hfolders₁, hopened₁⟩,
      .inr (.inr rfl)⟩
    · rw [List.foldlM_append, hflush]
      show Except.map _ (deliver (.file name) h₁ ⟨text.utf8ByteSize, s⟩ >>= pure) = _
      rw [hdeliver]
      rfl
    · rw [String.utf8ByteSize_append]

end

/-! ### A log of lines -/

theorem ofLines_concat (ls : List String) (l : String) :
    Text.ofLines (ls ++ [l]) = Text.ofLines ls ++ l ++ "\n" := by
  apply String.toList_inj.1
  simp [Text.ofLines]

/-- A part of a text of lines that ends behind a line, or behind its end. -/
def IsCut (handed : String) (ls : List String) : Prop :=
  ∃ before after, ls = before ++ after ∧
    (handed = Text.ofLines before ∨ ∃ l rest, after = l :: rest ∧ handed = Text.ofLines before ++ l)

theorem IsCut.append {handed : String} {ls : List String} (hcut : IsCut handed ls)
    (later : List String) : IsCut handed (ls ++ later) := by
  obtain ⟨before, after, rfl, hhanded⟩ := hcut
  refine ⟨before, after ++ later, List.append_assoc .., ?_⟩
  rcases hhanded with hhanded | ⟨l, rest, rfl, hhanded⟩
  · exact .inl hhanded
  · exact .inr ⟨l, rest ++ later, rfl, hhanded⟩

/-- The log stands open and leads to a file, and has taken these lines. -/
def Logs (folders : List Files.Place) (name : String) (ls : List String) (h : Host) : Prop :=
  ∃ handed, Records folders name handed (Text.ofLines ls) h ∧ IsCut handed ls

section
variable {folders : List Files.Place} {name : String} {ls ls' : List String}

theorem Logs.of_same (hh : Logs folders name ls h) (hfiles : h'.files = h.files)
    (hlog : h'.log = h.log) : Logs folders name ls h' :=
  hh.imp fun _ hrecords => hrecords.imp_left (·.of_same hfiles hlog)

theorem Logs.appendLog (hh : Logs folders name ls h) (l : String) :
    ∃ h', h.appendLog l = (.ok (), h') ∧ Logs folders name (ls ++ [l]) h' := by
  obtain ⟨handed, hrecords, hcut⟩ := hh
  obtain ⟨h₁, handed₁, hline, hrecords₁, hhanded₁⟩ := hrecords.writeLog l
  obtain ⟨h₂, handed₂, hfeed, hrecords₂, hhanded₂⟩ := hrecords₁.writeLog "\n"
  rw [← ofLines_concat] at hrecords₂ hhanded₂
  refine ⟨h₂, appendLog_eq_ok_iff.2 ⟨h₁, hline, hfeed⟩, handed₂, hrecords₂, ?_⟩
  have hbefore : IsCut (Text.ofLines ls ++ l) (ls ++ [l]) := ⟨ls, [l], rfl, .inr ⟨l, [], rfl, rfl⟩⟩
  have hcut₁ : IsCut handed₁ (ls ++ [l]) := by
    rcases hhanded₁ with rfl | rfl | rfl
    · exact hcut.append [l]
    · exact ⟨ls, [l], rfl, .inl rfl⟩
    · exact hbefore
  rcases hhanded₂ with rfl | rfl | rfl
  · exact hcut₁
  · exact hbefore
  · exact ⟨ls ++ [l], [], (List.append_nil _).symm, .inl rfl⟩

/-- What a host takes into its log stands there. -/
theorem Logs.takes (hh : Logs folders name ls h) (ht : Takes h ls' h') :
    Logs folders name (ls ++ ls') h' := by
  induction ht generalizing ls with
  | quiet hfiles hlog =>
    rw [List.append_nil]
    exact hh.of_same hfiles hlog
  | line happend =>
    obtain ⟨h₁, happend₁, hlogs⟩ := hh.appendLog _
    rw [happend] at happend₁
    obtain rfl := congrArg Prod.snd happend₁
    exact hlogs
  | trans _ _ ihfirst ihrest =>
    rw [← List.append_assoc]
    exact ihrest (ihfirst hh)

/-- Once the log is closed the file holds all lines. -/
theorem Logs.closeLog (hh : Logs folders name ls h) : ∃ h', h.closeLog = (.ok (), h') ∧
    h'.log = none ∧ h'.files.folders = folders ∧ h'.files.opened = Files.standardTargets ∧
    h'.files.find? name = some (.ofText (Text.ofLines ls)) := by
  obtain ⟨handed, hrecords, -⟩ := hh
  obtain ⟨o, hlog, htarget, hplace, htext⟩ := hrecords.log
  obtain ⟨h', hflush, hcontent, -⟩ := flush_file (h := { h with
    log := none
    files := { h.files with opened := Files.standardTargets } }) hrecords.content hplace htext
  obtain ⟨hsame, hnone⟩ := sameBut_foldlM hflush
  refine ⟨h', ?_, hnone, hsame.folders.trans hrecords.folders, hsame.opened, hcontent⟩
  rw [Host.closeLog, hlog]
  dsimp only
  rw [htarget, hflush]

/-- A log that is opened anew is a file without lines. -/
theorem logs_openLog {path : String} (hopened : h.files.opened = Files.standardTargets)
    (hpath : h.files.resolve .new path = .ok (.file name)) :
    ∃ h', h.openLog path = (.ok (), h') ∧ Logs h.files.folders name [] h' := by
  refine ⟨_, by rw [openLog, create, hpath], "", ⟨⟨_, rfl, rfl, rfl, rfl⟩, ?_, ?_, ?_⟩, [], [], rfl,
    .inl rfl⟩
  · rw [Content.ofText_empty]
    exact Files.find?_put_self h.files name []
  · rfl
  · show h.files.opened ++ _ = _
    rw [hopened]

end

/-! ### Other files -/

section
variable {name path text : String} {t : Files.Target} {r : Except FileError Unit}

theorem sameBut_clear (t : Files.Target) (h : Host) :
    SameBut t h { h with files := h.files.clear t } := by
  cases t with
  | file name =>
    refine ⟨rfl, rfl, fun other hother => Files.find?_put_of_ne ?_, rfl⟩
    exact fun heq => hother (heq ▸ rfl)
  | null | full | stream => exact .refl ..

/-- Writing a file touches nothing but what its path leads to, and a file then holds the text. -/
theorem writeFile_cases (hwrite : h.writeFile path text = (r, h')) :
    ((∃ e, r = .error e) ∧ h' = h) ∨ ∃ t, h.files.resolve .new path = .ok t ∧ SameBut t h h' ∧
      h'.log = h.log ∧
      (r = .ok () → ∀ name, t = .file name → h'.files.find? name = some (.ofText text)) := by
  unfold writeFile create at hwrite
  cases hpath : h.files.resolve .new path with
  | error e =>
    rw [hpath] at hwrite
    obtain ⟨rfl, rfl⟩ := Prod.mk.inj hwrite
    exact .inl ⟨⟨e, rfl⟩, rfl⟩
  | ok t =>
    rw [hpath] at hwrite
    dsimp only at hwrite
    refine .inr ⟨t, rfl, ?_⟩
    have hclear := sameBut_clear t h
    cases hdeliver : deliver t { h with files := h.files.clear t } ⟨0, text⟩ with
    | error e =>
      rw [hdeliver] at hwrite
      obtain ⟨rfl, rfl⟩ := Prod.mk.inj hwrite
      exact ⟨hclear, rfl, nofun⟩
    | ok h₁ =>
      rw [hdeliver] at hwrite
      obtain ⟨rfl, rfl⟩ := Prod.mk.inj hwrite
      obtain ⟨hsame, hlog⟩ := sameBut_deliver hdeliver
      refine ⟨hclear.trans hsame, hlog, ?_⟩
      rintro - name rfl
      have hempty : (h.files.put name []).find? name = some (.ofText "") := by
        rw [Files.find?_put_self, Content.ofText_empty]
      have hput := deliver_file (h := { h with files := h.files.put name [] }) hempty text
      rw [String.empty_append] at hput
      obtain rfl := Except.ok.inj (hdeliver.symm.trans hput)
      exact Files.find?_put_self ..

/-- A log that is a file is not touched by writing elsewhere. -/
theorem Logs.writeFile {folders : List Files.Place} {ls : List String} (hh : Logs folders name ls h)
    (hpath : h.files.resolve .new path ≠ .ok (.file name))
    (hwrite : h.writeFile path text = (r, h')) : Logs folders name ls h' := by
  rcases writeFile_cases hwrite with ⟨-, rfl⟩ | ⟨t, ht, hsame, hlog, -⟩
  · exact hh
  · have hne : Files.Target.file name ≠ t := fun heq => hpath (heq ▸ ht)
    obtain ⟨handed, hrecords, hcut⟩ := hh
    exact ⟨handed, ⟨hlog ▸ hrecords.log, (hsame.find? name hne).trans hrecords.content,
      hsame.folders.trans hrecords.folders, hsame.opened.trans hrecords.opened⟩, hcut⟩

end

end Host
end CallBridge
