import CallBridge.Log.Validation
import CallBridge.Proofs.Json.Grammar
import CallBridge.Proofs.Log.Fields

/-!
# The rules of a log line

The rules are put to the members of a line, the entry is decoded from them afterwards. For members
that fit an entry the rules speak of the entry (`Validation.defects_eq_nil_iff`), all but one: a
measurement passes when there is a member for its shape, and that may be null. So `line_obeys` says
of a valid line what its entry obeys, with this one way for a measurement to have no shape.
-/

namespace CallBridge.Log
open Bench
open Json (Members)

namespace Entry

/-- The rules that an entry with its members obeys. -/
structure Obeys (e : Entry) (ms : Members) : Prop where
  traceId : Validation.parts e.traceId.toList = 3
  input : ∀ i, e.input = some i → i ∈ Arrangement.all.map (·.name)
  shape : e.event = Validation.measurementEvent → ms.contains "shape"
  property : e.event = Validation.propertyEvent →
    ∃ p, e.property = some p ∧ Validation.isFilled p

end Entry

namespace Validation
variable {ms : Members} {e : Entry}

theorem textField_eq_some_iff {name s : String} :
    textField ms name = some s ↔ ms.find? name = some (.str s) := by
  unfold textField
  split
  · next t h => simp [h]
  · next h =>
    constructor
    · rintro ⟨⟩
    · exact fun hfind => absurd hfind (h s)

theorem textField_of_mayHold {name : String} {a : Option String}
    (h : ms.MayHold name .string a) : textField ms name = a := by
  unfold Members.MayHold Members.slot at h
  unfold textField
  cases hfind : ms.find? name with
  | none =>
    rw [hfind] at h
    exact Except.ok.inj h
  | some j =>
    rw [hfind] at h
    cases j <;> cases h <;> rfl

theorem refused_eq_nil_iff {field : String} {passes : String → Bool} {message : String → String} :
    refused ms field passes message = [] ↔
      ∀ s, ms.find? field = some (.str s) → passes s := by
  simp only [← textField_eq_some_iff]
  unfold refused
  split
  · next s h =>
    rw [h]
    cases hp : passes s <;> simp [hp]
  · next h => simp [h]

theorem missingFields_eq_nil (h : e.Fits ms) : missingFields ms = [] := by
  have hcontains : ∀ {α : Type} {name : String} {d : Decoder α} {a : α}, ms.Holds name d a →
      ms.contains name = true := by
    rintro α name d a ⟨j, hfind, -⟩
    rw [Members.contains_eq, hfind]
    rfl
  simp [missingFields, requiredFields, hcontains h.timestamp, hcontains h.traceId,
    hcontains h.level, hcontains h.event]

/-- A field that may be missing holds the name of what it is decoded as, if it holds a text. -/
theorem eq_name_of_mayHold {α : Type} {all : List α} {f : α → String} {name s : String}
    {a : Option α} (h : ms.MayHold name (.choice (all.map fun a => (f a, a))) a)
    (hfind : ms.find? name = some (.str s)) : ∃ x ∈ all, s = f x := by
  obtain ⟨x, -, hx⟩ := h.exists_of_str hfind
  obtain ⟨hmem, hs⟩ := Decoder.choice_str hx
  exact ⟨x, hmem, hs⟩

theorem wrongWords_eq_nil_iff (h : e.Fits ms) :
    wrongWords ms = [] ↔ ∀ i, e.input = some i → i ∈ Arrangement.all.map (·.name) := by
  -- Level, outcome, kind and shape are decoded by their lists; an input is decoded as any text.
  have hnamed : ∀ {α : Type} {all : List α} {f : α → String} {name : String} {a : Option α},
      ms.MayHold name (.choice (all.map fun a => (f a, a))) a →
        ∀ s, ms.find? name = some (.str s) → (all.map f).contains s = true := by
    intro α all f name a hhold s hfind
    obtain ⟨x, hx, rfl⟩ := eq_name_of_mayHold hhold hfind
    exact List.contains_iff_mem.2 (List.mem_map_of_mem hx)
  have hlevel : ∀ s, ms.find? "level" = some (.str s) →
      (Level.all.map (·.name)).contains s = true := by
    intro s hfind
    obtain ⟨j, hj, hdecode⟩ := h.level
    obtain rfl := Option.some.inj (hj.symm.trans hfind)
    obtain ⟨hmem, rfl⟩ := Decoder.choice_str hdecode
    exact List.contains_iff_mem.2 (List.mem_map_of_mem hmem)
  have hshape : ∀ s, ms.find? "shape" = some (.str s) → (CallShape.ofName? s).isSome := by
    intro s hfind
    obtain ⟨x, -, rfl⟩ := eq_name_of_mayHold h.shape hfind
    rw [CallShape.ofName?_name]
    rfl
  have hinput : ∀ i, ms.find? "input" = some (.str i) ↔ e.input = some i := fun i => by
    rw [← textField_eq_some_iff, textField_of_mayHold h.input]
  simp only [wrongWords, List.append_eq_nil_iff, refused_eq_nil_iff, hinput,
    List.contains_iff_mem]
  refine ⟨fun hall => hall.2, fun hi => ⟨⟨⟨⟨?_, ?_⟩, ?_⟩, hshape⟩, hi⟩⟩
  · simpa only [List.contains_iff_mem] using hlevel
  · simpa only [List.contains_iff_mem] using hnamed h.outcome
  · simpa only [List.contains_iff_mem] using hnamed h.runKind

theorem missingSubjects_eq_nil_iff (h : e.Fits ms) : missingSubjects ms = [] ↔
    (e.event = measurementEvent → ms.contains "shape") ∧
      (e.event = propertyEvent → ∃ p, e.property = some p ∧ isFilled p) := by
  have hevent : textField ms "event" = some e.event :=
    textField_eq_some_iff.2 (Members.holds_string_iff.1 h.event)
  have hproperty : textField ms "property" = e.property := textField_of_mayHold h.property
  have hfilled : e.property.any isFilled = true ↔ ∃ p, e.property = some p ∧ isFilled p := by
    rw [Option.any_eq_true]
  simp only [missingSubjects, hevent, hproperty, List.append_eq_nil_iff, Option.some.injEq,
    ite_eq_right_iff, reduceCtorEq, imp_false, not_and, Bool.not_eq_true', Bool.not_eq_false,
    hfilled]

theorem wrongTraceId_eq_nil_iff (h : e.Fits ms) :
    wrongTraceId ms = [] ↔ parts e.traceId.toList = 3 := by
  simp [wrongTraceId, refused_eq_nil_iff, Members.holds_string_iff.1 h.traceId]

/-- Members that fit an entry have no defects if the entry obeys the rules. -/
theorem defects_eq_nil_iff (h : e.Fits ms) : defects ms = [] ↔ e.Obeys ms := by
  simp only [defects, List.append_eq_nil_iff, missingFields_eq_nil h, wrongWords_eq_nil_iff h,
    missingSubjects_eq_nil_iff h, wrongTraceId_eq_nil_iff h, true_and]
  exact ⟨fun ⟨⟨hinput, hshape, hproperty⟩, hid⟩ => ⟨hid, hinput, hshape, hproperty⟩,
    fun h => ⟨⟨h.input, h.shape, h.property⟩, h.traceId⟩⟩

theorem entryOf_object_iff : entryOf (.object ms) = .ok e ↔
    defects ms = [] ∧ Entry.decode (.object ms) = .ok e := by
  unfold entryOf
  dsimp only
  split
  · next hnone =>
    cases hdecode : Entry.decode (.object ms) <;> simp [hnone]
  · next hsome =>
    simp only [reduceCtorEq, false_iff, not_and]
    exact fun hnil => absurd hnil hsome

theorem line_eq_ok_iff {n : Nat} {text : List Char} : line n text = .ok e ↔
    ∃ ms, Json.ofChars Json.maxDepth text = .ok (.object ms) ∧
      entryOf (.object ms) = .ok e := by
  unfold line
  dsimp only
  cases hread : Json.ofChars Json.maxDepth text with
  | error f => simp
  | ok j =>
    cases j with
    | object ms =>
      simp only [Except.ok.injEq, Json.object.injEq, exists_eq_left']
      cases entryOf (.object ms) <;> simp [Except.mapError]
    | _ => simp [entryOf, Except.mapError]

/-- The entry of a valid line obeys every rule, but that a measurement whose line has null for its
shape has none. -/
theorem line_obeys {n : Nat} {text : List Char} (h : line n text = .ok e) :
    ∃ ms : Members, Json.ofChars Json.maxDepth text = .ok (.object ms) ∧
      parts e.traceId.toList = 3 ∧
      (∀ i, e.input = some i → i ∈ Arrangement.all.map (·.name)) ∧
      (e.event = measurementEvent → (e.shape = none ↔ ms.find? "shape" = some .null)) ∧
      (e.event = propertyEvent → ∃ p, e.property = some p ∧ isFilled p) := by
  obtain ⟨ms, hread, hentry⟩ := line_eq_ok_iff.1 h
  obtain ⟨hdefects, hdecode⟩ := entryOf_object_iff.1 hentry
  have hfits := Entry.fits_of_decode hdecode
  have hobeys := (defects_eq_nil_iff hfits).1 hdefects
  refine ⟨ms, hread, hobeys.traceId, hobeys.input, fun hevent => ?_, hobeys.property⟩
  have hthere : Members.find? ms "shape" ≠ none := by
    have hcontains := hobeys.shape hevent
    rwa [Members.contains_eq, Option.isSome_iff_ne_none] at hcontains
  rw [hfits.shape.eq_none_iff]
  exact or_iff_right hthere

theorem line_obeys_noop :
    let text := ("\x7b\"timestamp\":\"t\",\"trace_id\":\"a::b::c\",\"level\":\"info\"," ++
      "\"event\":\"measurement\",\"shape\":\"noop\"\x7d").toList
    ∃ e, line 7 text = .ok e ∧ e.event = measurementEvent ∧ e.shape = some .noop ∧
      ∃ ms : Members, Json.ofChars Json.maxDepth text = .ok (.object ms) ∧
        parts e.traceId.toList = 3 ∧
        (∀ i, e.input = some i → i ∈ Arrangement.all.map (·.name)) ∧
        (e.event = measurementEvent → (e.shape = none ↔ ms.find? "shape" = some .null)) ∧
        (e.event = propertyEvent → ∃ p, e.property = some p ∧ isFilled p) := by
  intro text
  obtain ⟨e, h, hevent, hshape⟩ :
      ∃ e, line 7 text = .ok e ∧ e.event = measurementEvent ∧ e.shape = some .noop :=
    ⟨_, rfl, rfl, rfl⟩
  exact ⟨e, h, hevent, hshape, line_obeys h⟩

/-- A measurement without a shape is let through where its line has null for it. -/
theorem line_null_shape : ∃ e,
    line 1 ("\x7b\"timestamp\":\"t\",\"trace_id\":\"a::b::c\",\"level\":\"info\"," ++
      "\"event\":\"measurement\",\"shape\":null\x7d").toList = .ok e ∧
    e.event = measurementEvent ∧ e.shape = none :=
  ⟨_, rfl, rfl, rfl⟩

end Validation
end CallBridge.Log
