import CallBridge.Proofs.Json.ReadBack
import CallBridge.Proofs.Log.Rules

/-!
# Entries read back

The line an entry is written as is valid and decoded as the entry, in every field
(`Validation.line_written`), as long as the entry obeys the rules, its doubles read back from their
texts and its details are an object of strings with sorted keys.
-/

namespace CallBridge.Log
open Bench
open Json (Members)

namespace Entry
variable {e : Entry}

/-- The numbers of an entry are of their widths. -/
structure InRange (e : Entry) : Prop where
  length : ∀ n, e.length = some n → n < Nat.pow 2 64
  exitCode : ∀ c, e.exitCode = some c → -(Nat.pow 2 31 : Nat) ≤ c ∧ c < (Nat.pow 2 31 : Nat)
  duration : ∀ n, e.duration = some n → n < Nat.pow 2 64

/-- The doubles of an entry. -/
def figures (e : Entry) : List Binary64 :=
  e.latency.toList ++ e.rate.toList ++ e.bridgeCalls.toList

/-- Details that are an object of strings, its keys sorted. -/
def FlatDetails (e : Entry) : Prop :=
  ∀ j, e.details = some j → ∃ ms : Members, j = .object ms ∧ ms.Sorted ∧ ∀ m ∈ ms, ∃ s, m.2 = .str s

/-- The members an entry is written with. -/
def members (e : Entry) : Members :=
  match e.toJson with
  | .object ms => ms
  | _ => []

/-- The members an entry is read back with. -/
def readMembers (e : Entry) : Members :=
  Members.sort (e.members.map fun m => (m.1, Json.canonical 126 m.2))

theorem distinct_members (e : Entry) : e.members.Distinct := by
  have hkeys : List.Sublist (e.members.map (·.1)) (record.fields.map (·.name)) := by
    simp only [members, toJson, List.map_append]
    change List.Sublist _ (["timestamp", "trace_id", "level", "event"] ++ ["run_kind"] ++ ["shape"] ++
      ["length"] ++ ["input"] ++ ["property"] ++ ["outcome"] ++ ["exit_code"] ++ ["latency_ns"] ++
      ["ops_per_ms"] ++ ["bridge_calls_per_op"] ++ ["duration_ms"] ++ ["artifact_refs"] ++ ["details"])
    iterate 13 refine List.Sublist.append ?_ (Members.keys_optional_sublist ..)
    exact List.Sublist.refl _
  exact hkeys.nodup (by decide)

theorem find?_readMembers (e : Entry) (key : String) :
    e.readMembers.find? key = (e.members.find? key).map (Json.canonical 126) := by
  have hdistinct : Members.Distinct (e.members.map fun m => (m.1, Json.canonical 126 m.2)) := by
    simpa [Members.Distinct, Function.comp_def] using distinct_members e
  rw [readMembers, Members.find?_sort hdistinct, Members.find?_map]

theorem isIntegral_of_exitCode {c : Int}
    (h : -(Nat.pow 2 31 : Nat) ≤ c ∧ c < (Nat.pow 2 31 : Nat)) : Json.isIntegral c := by
  have hpow : Nat.pow 2 31 ≤ Nat.pow 2 63 ∧ Nat.pow 2 31 ≤ Nat.pow 2 64 := by decide
  simp only [Json.isIntegral, Bool.and_eq_true, decide_eq_true_eq]
  omega

/-- A value that an entry is written with is one of its doubles, or it reads back. -/
theorem figure_or_legible (hrange : e.InRange) (hdetails : e.FlatDetails) :
    ∀ m ∈ e.members, (∃ x ∈ e.figures, m.2 = .float x) ∨ Json.Legible 126 m.2 := by
  simp only [members, toJson, List.forall_mem_append, Members.forall_mem_optional]
  refine ⟨⟨⟨⟨⟨⟨⟨⟨⟨⟨⟨⟨⟨?_, ?_⟩, ?_⟩, ?_⟩, ?_⟩, ?_⟩, ?_⟩, ?_⟩, ?_⟩, ?_⟩, ?_⟩, ?_⟩, ?_⟩, ?_⟩
  · simp [Json.legible_str]
  · exact fun _ _ => .inr (Json.legible_str ..)
  · exact fun _ _ => .inr (Json.legible_str ..)
  · exact fun n hn => .inr (Json.isIntegral_of_lt (hrange.length n hn))
  · exact fun _ _ => .inr (Json.legible_str ..)
  · exact fun _ _ => .inr (Json.legible_str ..)
  · exact fun _ _ => .inr (Json.legible_str ..)
  · exact fun c hc => .inr (isIntegral_of_exitCode (hrange.exitCode c hc))
  · exact fun x hx => .inl ⟨x, by simp [figures, hx], rfl⟩
  · exact fun x hx => .inl ⟨x, by simp [figures, hx], rfl⟩
  · exact fun x hx => .inl ⟨x, by simp [figures, hx], rfl⟩
  · exact fun n hn => .inr (Json.isIntegral_of_lt (hrange.duration n hn))
  · intro paths _
    refine .inr fun j hj => ?_
    obtain ⟨path, -, rfl⟩ := List.mem_map.1 hj
    exact Json.legible_str ..
  · intro j hj
    obtain ⟨ms, rfl, -, hms⟩ := hdetails j hj
    refine .inr fun m hm => ?_
    obtain ⟨s, hs⟩ := hms m hm
    rw [hs]
    exact Json.legible_str ..

theorem legible_members (hrange : e.InRange) (hdetails : e.FlatDetails)
    (hread : ∀ x ∈ e.figures, Json.ReadsBack x) :
    ∀ m ∈ e.members, Json.Legible 126 m.2 := by
  intro m hm
  rcases figure_or_legible hrange hdetails m hm with ⟨x, hx, hfloat⟩ | hlegible
  · rw [hfloat]
    exact hread x hx
  · exact hlegible

/-! ### Decoding -/

theorem nullable_exitCode {c : Int} (h : -(Nat.pow 2 31 : Nat) ≤ c ∧ c < (Nat.pow 2 31 : Nat)) :
    decodeExitCode.nullable (.int c) = .ok (some c) := by
  change (Decoder.integer ..).map some = _
  rw [Decoder.integer_of_mem h]
  rfl

theorem find?_str_readMembers {key s : String} (h : e.members.find? key = some (.str s)) :
    e.readMembers.find? key = some (.str s) := by
  rw [find?_readMembers, h, Option.map_some, Json.canonical_str]

theorem mayHold_readMembers {α : Type} {key : String} {f : α → Json} {d : Decoder α}
    {a : Option α} (hfind : e.members.find? key = a.map f)
    (hread : ∀ x, a = some x →
      Json.canonical 126 (f x) = f x ∧ d.nullable (f x) = .ok (some x)) :
    e.readMembers.MayHold key d a := by
  refine Members.mayHold_of_find? (f := f) ?_ fun x hx => (hread x hx).2
  rw [find?_readMembers, hfind]
  cases a with
  | none => rfl
  | some x => rw [Option.map_some, Option.map_some, (hread x rfl).1]

theorem fits_readMembers (hrange : e.InRange) (hdetails : e.FlatDetails) :
    e.Fits e.readMembers where
  timestamp := Members.holds_string_iff.2 (find?_str_readMembers (by simp [members, toJson]))
  traceId := Members.holds_string_iff.2 (find?_str_readMembers (by simp [members, toJson]))
  level := ⟨_, find?_str_readMembers (s := e.level.name) (by simp [members, toJson]),
    by cases e.level <;> rfl⟩
  event := Members.holds_string_iff.2 (find?_str_readMembers (by simp [members, toJson]))
  runKind := mayHold_readMembers (f := fun k => .str k.name) (by simp [members, toJson])
    fun k _ => ⟨Json.canonical_str .., by cases k <;> rfl⟩
  shape := mayHold_readMembers (f := fun k => .str k.name) (by simp [members, toJson])
    fun k _ => ⟨Json.canonical_str .., by cases k <;> rfl⟩
  length := mayHold_readMembers (by simp [members, toJson])
    fun n hn => ⟨rfl, Decoder.nullable_unsigned (hrange.length n hn)⟩
  input := mayHold_readMembers (by simp [members, toJson]) fun _ _ => ⟨Json.canonical_str .., rfl⟩
  property := mayHold_readMembers (by simp [members, toJson]) fun _ _ => ⟨Json.canonical_str .., rfl⟩
  outcome := mayHold_readMembers (f := fun k => .str k.name) (by simp [members, toJson])
    fun o _ => ⟨Json.canonical_str .., by cases o <;> rfl⟩
  exitCode := mayHold_readMembers (by simp [members, toJson])
    fun c hc => ⟨rfl, nullable_exitCode (hrange.exitCode c hc)⟩
  latency := mayHold_readMembers (f := .float) (by simp [members, toJson])
    fun _ _ => ⟨rfl, rfl⟩
  rate := mayHold_readMembers (f := .float) (by simp [members, toJson])
    fun _ _ => ⟨rfl, rfl⟩
  bridgeCalls := mayHold_readMembers (f := .float) (by simp [members, toJson])
    fun _ _ => ⟨rfl, rfl⟩
  duration := mayHold_readMembers (by simp [members, toJson])
    fun n hn => ⟨rfl, Decoder.nullable_unsigned (hrange.duration n hn)⟩
  artifacts := mayHold_readMembers (by simp [members, toJson])
    fun paths _ => ⟨Json.canonical_strings .., Decoder.nullable_strings paths⟩
  details := mayHold_readMembers (f := id) (by simp [members, toJson]) fun j hj => by
    obtain ⟨ms, rfl, hsorted, hstrings⟩ := hdetails j hj
    exact ⟨Json.canonical_flat hsorted hstrings _, rfl⟩

/-- The line of an entry is read as an object with its members. -/
theorem ofChars_line (hrange : e.InRange) (hdetails : e.FlatDetails)
    (hread : ∀ x ∈ e.figures, Json.ReadsBack x) :
    Json.ofChars Json.maxDepth e.line.toList = .ok (.object e.readMembers) := by
  have hlegible : Json.Legible Json.maxDepth e.toJson := legible_members hrange hdetails hread
  exact Json.read_compact hlegible

end Entry

/-- The line of an entry is valid and decoded as the entry, wherever it stands in its log. -/
theorem Validation.line_written {e : Entry} (hrange : e.InRange)
    (hid : parts e.traceId.toList = 3)
    (hinput : ∀ i, e.input = some i → i ∈ Arrangement.all.map (·.name))
    (hshape : e.event = measurementEvent → e.shape ≠ none)
    (hproperty : e.event = propertyEvent → ∃ p, e.property = some p ∧ isFilled p)
    (hfinite : ∀ x ∈ e.figures, x.isFinite)
    (hread : ∀ x ∈ e.figures, x.isFinite → Json.ReadsBack x)
    (hdetails : e.FlatDetails) (n : Nat) :
    line n e.line.toList = .ok e := by
  have hfits := Entry.fits_readMembers hrange hdetails
  have hthere : e.event = measurementEvent → e.readMembers.contains "shape" := by
    intro hevent
    rw [Members.contains_eq, Option.isSome_iff_ne_none]
    exact fun hnone => hshape hevent (hfits.shape.eq_none_iff.2 (.inl hnone))
  have hdefects : defects e.readMembers = [] :=
    (defects_eq_nil_iff hfits).2 ⟨hid, hinput, hthere, hproperty⟩
  have hdecode : Entry.decode (.object e.readMembers) = .ok e :=
    hfits.decode (Members.sorted_sort _).distinct
  exact line_eq_ok_iff.2 ⟨_, Entry.ofChars_line hrange hdetails
    fun x hx => hread x hx (hfinite x hx), entryOf_object_iff.2 ⟨hdefects, hdecode⟩⟩

theorem Validation.line_written_measurement :
    let e : Entry := {
      timestamp := "2026-02-28T23:59:59Z", traceId := "bench::a \"b\" \\ \u00e9\n\x01::001",
      level := .info, event := "measurement", runKind := some .bench, shape := some .qsortInstance,
      length := some 1000, input := some "random", property := some "", outcome := some .pass,
      exitCode := some (-2147483648), latency := some ⟨4609434218613702656⟩,
      rate := some ⟨4599075939470750515⟩, bridgeCalls := some ⟨13826050856027422720⟩,
      duration := some 18446744073709551615, artifacts := some ["out/log.jsonl", ""],
      details := some (.object [("", .str "\x1f\x7f"), ("k", .str "\u2028\t"), ("\u65e5", .str "")]) }
    line 3 e.line.toList = .ok e := by
  intro e
  have hrange : e.InRange := by
    refine ⟨?_, ?_, ?_⟩ <;> rintro _ ⟨⟩ <;> decide
  have hid : parts e.traceId.toList = 3 := by decide +kernel
  have hinput : ∀ i, e.input = some i → i ∈ Arrangement.all.map (·.name) := by
    rintro _ ⟨⟩
    decide
  have hfinite : ∀ x ∈ e.figures, x.isFinite := by decide
  have hread : ∀ x ∈ e.figures, x.isFinite → Json.ReadsBack x := by decide +kernel
  have hdetails : e.FlatDetails := by
    rintro _ ⟨⟩
    refine ⟨_, rfl, ?_, by simp⟩
    unfold Members.Sorted
    decide
  exact line_written hrange hid hinput (fun _ => Option.some_ne_none _) (fun h => absurd h (by decide))
    hfinite hread hdetails 3

end CallBridge.Log
