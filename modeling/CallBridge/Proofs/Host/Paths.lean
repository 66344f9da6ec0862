import CallBridge.Host.Files
import Mathlib.Data.List.Basic

/-!
# What a path leads to, later

A path that can be written to leads to the same target as long as the folders are the same and what
stands open leads there (`Extends`): files that come and go make no difference to it
(`resolve_new_of_extends`). Once something is there, it is also found by who reads along the path
(`Shows.read`).
-/

namespace CallBridge.Files

/-! ### Files by their names -/

section
variable {f : Files} {name other : String} {c : Content}

theorem find?_put_self (f : Files) (name : String) (c : Content) :
    (f.put name c).find? name = some c := by
  have hnone : (f.erase name).entries.find? (·.1 = name) = none := by
    simp [erase]
  simp [find?, put, hnone]

theorem find?_put_of_ne (h : other ≠ name) : (f.put name c).find? other = f.find? other := by
  have hne : name ≠ other := Ne.symm h
  have herase : (f.erase name).entries.find? (·.1 = other) = f.entries.find? (·.1 = other) := by
    rw [erase, List.find?_filter]
    congr 1
    funext e
    by_cases he : e.1 = other <;> simp [he, h]
  simp [find?, put, herase, hne]

end

/-! ### Walks -/

section
variable {f f' : Files} {use : Use} {place place' : Place} {name : String} {t : Target}

theorem standing?_congr (hfolders : f'.folders = f.folders) (place : Place) (name : String) :
    f'.standing? place name = f.standing? place name := by
  rw [standing?, hfolders]
  rfl

theorem fileName?_congr (hfolders : f'.folders = f.folders) (place : Place) (name : String) :
    f'.fileName? place name = f.fileName? place name := by
  have hkeeps : f'.keepsFiles place = f.keepsFiles place := by
    unfold keepsFiles
    rw [hfolders]
  rw [fileName?, hkeeps]
  rfl

theorem entry?_of_ne (hplace : place ≠ .opened) (f : Files) (name : String) :
    f.entry? place name = (f.standing? place name <|>
      (f.fileName? place name).bind fun file =>
        (f.find? file).map fun _ => .target (.file file)) := by
  cases place with
  | opened => exact absurd rfl hplace
  | _ => rfl

/-- What bears a name where what stands open is not shown: the same in all files with these folders,
or a file of this name if there is one, or nothing where no file can be. -/
theorem entry?_cases (hplace : place ≠ .opened) (f : Files) (name : String) :
    (∃ e, ∀ g : Files, g.folders = f.folders → g.entry? place name = some e) ∨
    (∃ file, ∀ g : Files, g.folders = f.folders → g.fileName? place name = some file ∧
      g.entry? place name = (g.find? file).map fun _ => .target (.file file)) ∨
    ∀ g : Files, g.folders = f.folders → g.fileName? place name = none ∧
      g.entry? place name = none := by
  cases hstanding : f.standing? place name with
  | some e =>
    refine .inl ⟨e, fun g hg => ?_⟩
    rw [entry?_of_ne hplace, standing?_congr hg, hstanding]
    rfl
  | none =>
    have hentry : ∀ g : Files, g.folders = f.folders → g.entry? place name =
        (f.fileName? place name).bind fun file =>
          (g.find? file).map fun _ => .target (.file file) := by
      intro g hg
      rw [entry?_of_ne hplace, standing?_congr hg, hstanding, fileName?_congr hg]
      rfl
    cases hfile : f.fileName? place name with
    | some file =>
      refine .inr (.inl ⟨file, fun g hg => ⟨by rw [fileName?_congr hg, hfile], ?_⟩⟩)
      rw [hentry g hg, hfile]
      rfl
    | none =>
      refine .inr (.inr fun g hg => ⟨by rw [fileName?_congr hg, hfile], ?_⟩)
      rw [hentry g hg, hfile]
      rfl

theorem entry?_place (hfolders : f'.folders = f.folders)
    (h : f.entry? place name = some (.place place')) :
    f'.entry? place name = some (.place place') := by
  by_cases hplace : place = .opened
  · subst hplace
    unfold entry? at h
    dsimp only at h
    cases hfind : f.opened.zipIdx.find? (toString ·.2 = name) <;> rw [hfind] at h <;> cases h
  · rcases entry?_cases hplace f name with ⟨e, hsame⟩ | ⟨file, hfile⟩ | hnone
    · rw [hsame f' hfolders, ← hsame f rfl, h]
    · rw [(hfile f rfl).2] at h
      cases hfind : f.find? file <;> rw [hfind] at h <;> cases h
    · rw [(hnone f rfl).2] at h
      cases h

/-- The last step of a walk. -/
def arrive (f : Files) (use : Use) (place : Place) (name : String) : Except SystemError Target :=
  match f.entry? place name with
  | some (.place _) => .error .isADirectory
  | some (.target t) => .ok t
  | some (.closed e) => .error e
  | none => f.take use place name

theorem arrive_of_new (hfolders : f'.folders = f.folders)
    (hopened : ∀ name, f.entry? .opened name = some (.target t) →
      f'.entry? .opened name = some (.target t))
    (hthere : use = .existing → ∀ name, t = .file name → f'.find? name ≠ none)
    (h : f.arrive .new place name = .ok t) : f'.arrive use place name = .ok t := by
  by_cases hplace : place = .opened
  · subst hplace
    have hentry : f.entry? .opened name = some (.target t) := by
      unfold arrive at h
      cases hentry : f.entry? .opened name with
      | none =>
        rw [hentry] at h
        cases h
      | some e =>
        rw [hentry] at h
        cases e with
        | target u =>
          obtain rfl := Except.ok.inj h
          rfl
        | place | closed => cases h
    rw [arrive, hopened name hentry]
  · unfold arrive at h ⊢
    rcases entry?_cases hplace f name with ⟨e, hsame⟩ | ⟨file, hfile⟩ | hnone
    · rw [hsame f rfl] at h
      rw [hsame f' hfolders]
      cases e <;> exact h
    · obtain ⟨hname, hentry⟩ := hfile f rfl
      obtain ⟨hname', hentry'⟩ := hfile f' hfolders
      have ht : t = .file file := by
        rw [hentry] at h
        cases hfind : f.find? file with
        | none =>
          rw [hfind] at h
          simp only [Option.map_none, take, hname, Except.ok.injEq] at h
          exact h.symm
        | some c =>
          rw [hfind] at h
          exact (Except.ok.inj h).symm
      rw [hentry']
      cases hfind : f'.find? file with
      | none =>
        cases use with
        | existing => exact absurd hfind (hthere rfl file ht)
        | new => simp [take, hname', ht]
      | some c => simp [ht]
    · obtain ⟨hname, hentry⟩ := hnone f rfl
      rw [hentry] at h
      simp [take, hname] at h

section
variable {part next : String} {rest : List String}

theorem walk_last (hstay : ¬(part = "" ∨ part = ".")) (hup : part ≠ "..") :
    f.walk use place [part] =
      if maxName < part.utf8ByteSize then .error .nameTooLong else f.arrive use place part := by
  rw [walk, if_neg hstay, if_neg hup, if_neg (by simp)]
  rfl

/-- Before the last step a walk goes on from a place. -/
theorem walk_more (hstay : ¬(part = "" ∨ part = ".")) (hup : part ≠ "..") :
    f.walk use place (part :: next :: rest) = .ok t ↔
      ¬(use = .new ∧ (next :: rest).all (· = "")) ∧ ¬maxName < part.utf8ByteSize ∧
        ∃ place', f.entry? place part = some (.place place') ∧
          f.walk use place' (next :: rest) = .ok t := by
  rw [walk, if_neg hstay, if_neg hup]
  simp only [List.isEmpty_cons, Bool.not_false, true_and, Bool.false_eq_true, if_false]
  split_ifs with hslash hlong
  · simp [hslash]
  · simp [hlong]
  · cases hentry : f.entry? place part with
    | none => simp
    | some e =>
      cases e with
      | place place' =>
        refine ⟨fun h => ⟨hslash, hlong, place', rfl, h⟩, fun ⟨_, _, _, hplace, h⟩ => ?_⟩
        cases hplace
        exact h
      | target | closed => simp

end

/-- A walk to something that can be written leads there in other files as well, if what stands open
does and, for a reader, if it is there. -/
theorem walk_of_new (hfolders : f'.folders = f.folders)
    (hopened : ∀ name, f.entry? .opened name = some (.target t) →
      f'.entry? .opened name = some (.target t))
    (hthere : use = .existing → ∀ name, t = .file name → f'.find? name ≠ none)
    {parts : List String} (h : f.walk .new place parts = .ok t) :
    f'.walk use place parts = .ok t := by
  induction parts generalizing place with
  | nil => cases h
  | cons part rest ih =>
    by_cases hstay : part = "" ∨ part = "."
    · rw [walk, if_pos hstay] at h ⊢
      exact ih h
    by_cases hup : part = ".."
    · rw [walk, if_neg hstay, if_pos hup] at h ⊢
      exact ih h
    cases rest with
    | nil =>
      rw [walk_last hstay hup] at h ⊢
      split_ifs at h ⊢
      exact arrive_of_new hfolders hopened hthere h
    | cons next rest =>
      obtain ⟨hslash, hlong, place', hentry, hwalk⟩ := (walk_more hstay hup).1 h
      exact (walk_more hstay hup).2
        ⟨fun hnew => hslash ⟨rfl, hnew.2⟩, hlong, place', entry?_place hfolders hentry, ih hwalk⟩

end

/-! ### Paths -/

section
variable {f f' : Files} {path : String} {t d : Target}

theorem resolve_of_walk {use : Use} (hfolders : f'.folders = f.folders)
    (hopened : ∀ name, f.entry? .opened name = some (.target t) →
      f'.entry? .opened name = some (.target t))
    (hthere : use = .existing → ∀ name, t = .file name → f'.find? name ≠ none)
    (h : f.resolve .new path = .ok t) : f'.resolve use path = .ok t := by
  unfold resolve at h ⊢
  split_ifs at h ⊢
  have hlocate : f.locate .new path = .ok t := by
    cases hlocate : f.locate .new path with
    | error e => rw [hlocate] at h; cases h
    | ok u => rw [hlocate] at h; obtain rfl := Except.ok.inj h; rfl
  have hlocate' : f'.locate use path = .ok t := by
    unfold locate at hlocate ⊢
    split_ifs at hlocate ⊢
    all_goals exact walk_of_new hfolders hopened hthere hlocate
  rw [hlocate']

theorem entry?_of_opened_prefix {name : String} (hopened : f.opened <+: f'.opened)
    (hname : f.entry? .opened name = some (.target t)) :
    f'.entry? .opened name = some (.target t) := by
  obtain ⟨more, hmore⟩ := hopened
  unfold entry? at hname ⊢
  dsimp only at hname ⊢
  rw [← hmore, List.zipIdx_append, List.find?_append]
  cases hfind : f.opened.zipIdx.find? (toString ·.2 = name) with
  | none => rw [hfind] at hname; cases hname
  | some p =>
    rw [hfind] at hname
    exact hname

/-- All that leads somewhere in `f` is there in `f'` as well: the folders, and what stands open. -/
structure Extends (f f' : Files) : Prop where
  folders : f'.folders = f.folders
  opened : f.opened <+: f'.opened

theorem Extends.refl (f : Files) : f.Extends f := ⟨rfl, List.prefix_rfl⟩

theorem Extends.resolve_of (he : f.Extends f') {use : Use}
    (hthere : use = .existing → ∀ name, t = .file name → f'.find? name ≠ none)
    (h : f.resolve .new path = .ok t) : f'.resolve use path = .ok t :=
  resolve_of_walk he.folders (fun _ => entry?_of_opened_prefix he.opened) hthere h

/-- A path that can be written to leads to the same target as long as the folders and what stands
open are still there. -/
theorem resolve_new_of_extends (he : f.Extends f') (h : f.resolve .new path = .ok t) :
    f'.resolve .new path = .ok t :=
  he.resolve_of (fun hno => nomatch hno) h

/-- The path leads there for who writes, and something is there. -/
structure Shows (path : String) (t : Target) (f : Files) : Prop where
  resolve : f.resolve .new path = .ok t
  there : ∀ name, t = .file name → f.find? name ≠ none

theorem Shows.read (h : Shows path t f) : f.read path = .ok (f.content t) := by
  rw [Files.read, (Extends.refl f).resolve_of (fun _ => h.there) h.resolve]
  rfl

/-- With something more open a path leads there, or where it leads without. -/
theorem resolve_of_opened_append (hfolders : f'.folders = f.folders)
    (hopened : f'.opened ++ [d] = f.opened) (hd : t ≠ d)
    (h : f.resolve .new path = .ok t) : f'.resolve .new path = .ok t := by
  refine resolve_of_walk hfolders (fun name hname => ?_) (fun hno => nomatch hno) h
  unfold entry? at hname ⊢
  dsimp only at hname ⊢
  rw [← hopened, List.zipIdx_append, List.find?_append] at hname
  cases hfind : f'.opened.zipIdx.find? (toString ·.2 = name) with
  | some p =>
    rw [hfind] at hname
    exact hname
  | none =>
    rw [hfind, Option.none_or] at hname
    obtain ⟨p, hp, hpt⟩ := Option.map_eq_some_iff.1 hname
    have hmem := List.mem_of_find?_eq_some hp
    obtain rfl : p = (d, _) := by simpa using hmem
    cases hpt
    exact absurd rfl hd

end

end CallBridge.Files
