import CallBridge.Proofs.Json.Values
import CallBridge.Proofs.Log.Emission
import CallBridge.Proofs.Text.Lines

/-!
# What a log holds

An entry that obeys the rules is valid as it is written, whatever its doubles: a finite one is read
back as a double, any other as none (`Validation.line_lawful`). Its line is one line of a text, so a
text of such lines has no defects, be the last one ended or not (`Validation.log_of_isWritten`).
-/

namespace CallBridge

namespace Json

/-- What the text of a double is read as; none if the double is not finite. -/
def rereadFigure (x : Binary64) : Option Binary64 :=
  match scalar (floatChars x) with
  | .ok (.float y, _) => some y
  | _ => none

/-- A value as it is read back, a double like any other. -/
def reread : Json → Json
  | .float x => ((rereadFigure x).map .float).getD .null
  | j => canonical 126 j

theorem spellsScalar_reread (x : Binary64) : SpellsScalar (floatChars x) (reread (.float x)) := by
  cases hfinite : x.isFinite with
  | true =>
    obtain ⟨y, hy⟩ := exists_scalar_floatChars hfinite
    have hreread : reread (.float x) = .float y := by simp [reread, rereadFigure, hy]
    rw [hreread]
    exact (scalar_append_of_float hy).2
  | false =>
    have hbits : x.exponentBits = 2047 := by simpa [Binary64.isFinite] using hfinite
    have hnull : floatChars x = ['n', 'u', 'l', 'l'] := by
      simp only [floatChars, Binary64.value, hbits, if_true]
      split_ifs <;> rfl
    have hreread : reread (.float x) = .null := by
      have hscalar : scalar ['n', 'u', 'l', 'l'] = .ok (.null, []) := rfl
      simp [reread, rereadFigure, hnull, hscalar]
    rw [hreread, hnull]
    exact spellsScalar_null

theorem spells_reread {j : Json} (h : (∃ x, j = .float x) ∨ Legible 126 j) :
    Spells 126 (compactChars j) (reread j) := by
  rcases h with ⟨x, rfl⟩ | h
  · exact .inl (spellsScalar_reread x)
  · cases j with
    | float x => exact .inl (spellsScalar_reread x)
    | _ => exact spells_compactChars h

end Json

namespace Log
open Bench
open Json (Members)

/-! ### Lawful entries -/

namespace Entry
variable {e : Entry}

/-- An entry that obeys the rules, with numbers of their widths and flat details. -/
structure Lawful (e : Entry) : Prop where
  range : e.InRange
  traceId : Validation.parts e.traceId.toList = 3
  input : ∀ i, e.input = some i → i ∈ Arrangement.all.map (·.name)
  shape : e.event = Validation.measurementEvent → e.shape ≠ none
  property : e.event = Validation.propertyEvent → ∃ p, e.property = some p ∧ Validation.isFilled p
  details : e.FlatDetails

/-- An entry with its doubles as they are read back. -/
def reread (e : Entry) : Entry :=
  { e with
    latency := e.latency.bind Json.rereadFigure
    rate := e.rate.bind Json.rereadFigure
    bridgeCalls := e.bridgeCalls.bind Json.rereadFigure }

/-- The members an entry is read back with, whatever its doubles. -/
def rereadMembers (e : Entry) : Members :=
  Members.sort (e.members.map fun m => (m.1, Json.reread m.2))

theorem find?_rereadMembers (e : Entry) (key : String) :
    e.rereadMembers.find? key = (e.members.find? key).map Json.reread := by
  have hdistinct : Members.Distinct (e.members.map fun m => (m.1, Json.reread m.2)) := by
    simpa [Members.Distinct, Function.comp_def] using distinct_members e
  rw [rereadMembers, Members.find?_sort hdistinct, Members.find?_map]

/-- Only doubles are read back as something else. -/
theorem find?_rereadMembers_of_ne {key : String} (h : ∀ x, e.members.find? key ≠ some (.float x)) :
    e.rereadMembers.find? key = e.readMembers.find? key := by
  rw [find?_rereadMembers, find?_readMembers]
  cases hfind : e.members.find? key with
  | none => rfl
  | some j =>
    cases j with
    | float x => exact absurd hfind (h x)
    | _ => rfl

theorem mayHold_reread {key : String} {a : Option Binary64}
    (hfind : e.members.find? key = a.map .float) :
    e.rereadMembers.MayHold key .float (a.bind Json.rereadFigure) := by
  have hreread : e.rereadMembers.find? key = a.map fun x => Json.reread (.float x) := by
    rw [find?_rereadMembers, hfind, Option.map_map]
    rfl
  unfold Members.MayHold Members.slot
  rw [hreread]
  cases a with
  | none => rfl
  | some x =>
    simp only [Option.map_some, Option.bind_some, Json.reread]
    cases Json.rereadFigure x <;> rfl

theorem holds_rereadMembers {α : Type} {key : String} {d : Decoder α} {a : α}
    (hne : ∀ x, e.members.find? key ≠ some (.float x)) (h : e.readMembers.Holds key d a) :
    e.rereadMembers.Holds key d a := by
  obtain ⟨j, hfind, hdecode⟩ := h
  exact ⟨j, (find?_rereadMembers_of_ne hne).trans hfind, hdecode⟩

theorem mayHold_rereadMembers {α : Type} {key : String} {d : Decoder α} {a : Option α}
    (hne : ∀ x, e.members.find? key ≠ some (.float x)) (h : e.readMembers.MayHold key d a) :
    e.rereadMembers.MayHold key d a := by
  unfold Members.MayHold Members.slot at h ⊢
  rwa [find?_rereadMembers_of_ne hne]

theorem fits_rereadMembers (hrange : e.InRange) (hdetails : e.FlatDetails) :
    e.reread.Fits e.rereadMembers := by
  have h := fits_readMembers hrange hdetails
  have hflat : ∀ x, e.details ≠ some (.float x) := by
    intro x hx
    obtain ⟨ms, hms, -⟩ := hdetails _ hx
    cases hms
  exact {
    timestamp := holds_rereadMembers (by simp [members, toJson]) h.timestamp
    traceId := holds_rereadMembers (by simp [members, toJson]) h.traceId
    level := holds_rereadMembers (by simp [members, toJson]) h.level
    event := holds_rereadMembers (by simp [members, toJson]) h.event
    runKind := mayHold_rereadMembers (by simp [members, toJson]) h.runKind
    shape := mayHold_rereadMembers (by simp [members, toJson]) h.shape
    length := mayHold_rereadMembers (by simp [members, toJson, Json.nat]) h.length
    input := mayHold_rereadMembers (by simp [members, toJson]) h.input
    property := mayHold_rereadMembers (by simp [members, toJson]) h.property
    outcome := mayHold_rereadMembers (by simp [members, toJson]) h.outcome
    exitCode := mayHold_rereadMembers (by simp [members, toJson]) h.exitCode
    latency := mayHold_reread (by simp [members, toJson])
    rate := mayHold_reread (by simp [members, toJson])
    bridgeCalls := mayHold_reread (by simp [members, toJson])
    duration := mayHold_rereadMembers (by simp [members, toJson, Json.nat]) h.duration
    artifacts := mayHold_rereadMembers (by simp [members, toJson]) h.artifacts
    details := mayHold_rereadMembers (by simpa [members, toJson] using hflat) h.details }

theorem exists_members (e : Entry) : ∃ m ms, e.members = m :: ms ∧
    e.line.toList = '{' :: (Json.compactMembers e.members ++ ['}']) := by
  refine ⟨_, _, rfl, ?_⟩
  rw [line, Json.toList_compact]
  rfl

/-- The line of an entry is read as an object with its members, whatever its doubles. -/
theorem ofChars_line_reread (hrange : e.InRange) (hdetails : e.FlatDetails) :
    Json.ofChars Json.maxDepth e.line.toList = .ok (.object e.rereadMembers) := by
  obtain ⟨m, ms, hms, hline⟩ := e.exists_members
  have hspells : ∀ i ∈ m :: ms, Json.Spells 126 (Json.compactChars i.2) (Json.reread i.2) := by
    intro i hi
    refine Json.spells_reread ?_
    rcases figure_or_legible hrange hdetails i (hms ▸ hi) with ⟨x, -, hx⟩ | hlegible
    · exact .inl ⟨x, hx⟩
    · exact .inr hlegible
  have hobject : Json.Spells Json.maxDepth e.line.toList (.object e.rereadMembers) := by
    rw [hline, rereadMembers, hms]
    exact .inr (.object (Json.spellsMembers_compact hspells))
  have hread := Json.ofChars_of_spells Json.blank_nil hobject Json.blank_nil
  simpa using hread

/-- A line is one line of a text. -/
theorem isLine_line (e : Entry) : Text.IsLine e.line.toList where
  feed := by
    rw [line, Json.toList_compact]
    exact fun h => absurd (Json.printed_compactChars _ _ h) (by decide)
  first := by
    obtain ⟨m, ms, -, hline⟩ := e.exists_members
    exact ⟨'{', by rw [hline]; rfl, by decide⟩
  last := by
    obtain ⟨m, ms, -, hline⟩ := e.exists_members
    exact ⟨'}', by rw [hline, ← List.cons_append, List.getLast?_concat], by decide⟩

end Entry

/-! ### Entries that were begun -/

/-- A name of a run that leaves a trace id its three parts. -/
def IsPlain (runId : String) : Prop := ¬ Validation.separator <:+: runId.toList

theorem traceId_ne_empty (kind : RunKind) (runId : String) (number : Nat) :
    traceId kind runId number ≠ "" := by
  have hname : kind.name ≠ "" := by cases kind <;> decide
  intro h
  have hempty : kind.name.toList = [] := by
    have hlist := congrArg String.toList h
    simp only [traceId, toString, String.toList_append, String.toList_empty,
      List.append_eq_nil_iff] at hlist
    exact hlist.1.1.1.1
  exact hname (String.toList_inj.1 hempty)

/-- An entry that was begun has nothing left to complete. -/
theorem Emitter.complete_of_begun {e : Entry} (log : Emitter) (hid : e.traceId ≠ "")
    (hkind : e.runKind ≠ none) : log.complete e = (e, log) := by
  obtain ⟨kind, hkind⟩ := Option.ne_none_iff_exists'.1 hkind
  have hself : { e with runKind := some kind } = e := by rw [← hkind]
  rw [complete, if_neg hid, hkind]
  exact congrArg (·, log) hself

namespace Validation
variable {e : Entry}

/-- The line of a lawful entry is valid, and decoded as the entry but for its doubles. -/
theorem line_lawful (h : e.Lawful) (n : Nat) : line n e.line.toList = .ok e.reread := by
  have hfits := Entry.fits_rereadMembers h.range h.details
  have hshape : e.reread.event = measurementEvent → e.rereadMembers.contains "shape" := by
    intro hevent
    rw [Members.contains_eq, Option.isSome_iff_ne_none]
    exact fun hnone => h.shape hevent (hfits.shape.eq_none_iff.2 (.inl hnone))
  have hdefects : defects e.rereadMembers = [] :=
    (defects_eq_nil_iff hfits).2 ⟨h.traceId, h.input, hshape, h.property⟩
  have hdecode : Entry.decode (.object e.rereadMembers) = .ok e.reread :=
    hfits.decode (Members.sorted_sort _).distinct
  exact line_eq_ok_iff.2 ⟨_, Entry.ofChars_line_reread h.range h.details,
    entryOf_object_iff.2 ⟨hdefects, hdecode⟩⟩

/-! ### Texts of logs -/

/-- A text that holds the lines of entries, the last one ended or not. -/
def IsWritten (t : String) (es : List Entry) : Prop :=
  t = Text.ofLines (es.map (·.line)) ∨
    ∃ before e, es = before ++ [e] ∧ t = Text.ofLines (before.map (·.line)) ++ e.line

theorem lines_of_isWritten {t : String} {es : List Entry} (h : IsWritten t es) :
    Text.lines t = es.map (·.line.toList) := by
  have hlines : ∀ es : List Entry, ∀ l ∈ (es.map (·.line)).map String.toList, Text.IsLine l := by
    intro es l hl
    obtain ⟨s, hs, rfl⟩ := List.mem_map.1 hl
    obtain ⟨e, -, rfl⟩ := List.mem_map.1 hs
    exact e.isLine_line
  rcases h with rfl | ⟨before, e, rfl, rfl⟩
  · have htext := Text.toList_ofLines (es.map (·.line))
    rw [← List.append_nil (List.flatMap ..)] at htext
    simpa [Function.comp_def] using Text.lines_of_isLine htext (hlines es) (.inl rfl)
  · have htext : (Text.ofLines (before.map (·.line)) ++ e.line).toList = _ :=
      (String.toList_append ..).trans (by rw [Text.toList_ofLines])
    have hread := Text.lines_of_isLine htext (hlines before) (.inr e.isLine_line)
    rw [if_neg e.isLine_line.ne_nil] at hread
    simpa [Function.comp_def] using hread

/-- Every line of such a text is found under its number. -/
theorem numbered_of_isWritten {t : String} {es : List Entry} (h : IsWritten t es) :
    numbered t = (es.zipIdx 1).map fun p => (p.2, p.1.line.toList) := by
  rw [numbered, lines_of_isWritten h]
  clear h
  generalize 1 = first
  induction es generalizing first with
  | nil => rfl
  | cons e es ih =>
    have htrim := e.isLine_line.trimChars_eq
    have hempty : e.line.toList.isEmpty = false := by simpa using e.isLine_line.ne_nil
    simp only [List.map_cons, List.zipIdx_cons, List.filterMap_cons, htrim, hempty]
    exact congrArg _ (ih (first + 1))

/-- What the lines of a log that are not blank are decoded as. -/
def decoded (t : String) : List (Except (List Defect) Entry) :=
  (numbered t).map fun p => line p.1 p.2

/-- A text of lawful entries is decoded as these entries, but for their doubles. -/
theorem decoded_of_isWritten {t : String} {es : List Entry} (h : IsWritten t es)
    (hes : ∀ e ∈ es, e.Lawful) : decoded t = es.map fun e => .ok e.reread := by
  have hlines : ∀ p ∈ es.zipIdx 1, line p.2 p.1.line.toList = .ok p.1.reread := by
    intro p hp
    obtain ⟨-, -, he⟩ := List.mem_zipIdx hp
    exact line_lawful (hes p.1 (he ▸ List.getElem_mem _)) p.2
  have hfst : es.map (fun e => Except.ok e.reread) =
      (es.zipIdx 1).map fun p => (Except.ok p.1.reread : Except (List Defect) Entry) := by
    conv_lhs => rw [← List.zipIdx_map_fst 1 es, List.map_map]
    rfl
  rw [decoded, numbered_of_isWritten h, List.map_map, hfst]
  refine List.map_congr_left fun p hp => ?_
  simp only [Function.comp_apply]
  exact hlines p hp

/-- What is decoded throughout has no defects. -/
theorem log_of_decoded {t : String} {es : List Entry} (h : decoded t = es.map .ok) :
    log t = (es.length, []) := by
  have hlength : (numbered t).length = es.length := by
    simpa [decoded] using congrArg List.length h
  refine Prod.ext hlength (List.flatMap_eq_nil_iff.2 fun p hp => ?_)
  have hmem : line p.1 p.2 ∈ decoded t := List.mem_map_of_mem hp
  obtain ⟨e, -, he⟩ := List.mem_map.1 (h ▸ hmem)
  show defectsOf p.1 p.2 = []
  rw [defectsOf, ← he]

end Validation
end Log
end CallBridge
