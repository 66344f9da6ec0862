import CallBridge.Diagnostic.Notice
import CallBridge.Host.Clock
import CallBridge.Proofs.Json.Values

/-!
# What a diagnostic line says

The members of a line are those of its frame and, under every other key, those of the fields
(`exists_members`), so no field can pass for a time, a level, a component or an event. The line has
no line break and is read back as these members, whatever the strings in it; only a reader that does
not go deep enough refuses it (`line_unspoofed`).
-/

namespace CallBridge

/-- The stamp is the number of milliseconds since 1970, as far as a word can hold it. -/
theorem WallTime.stamp_eq {t : WallTime} (h : t.nanoseconds < 1000000000) :
    t.stamp = min ((t.seconds * 1000000000 + t.nanoseconds) / 1000000).toNat (Nat.pow 2 64 - 1) := by
  have hmilliseconds :
      t.milliseconds = ((t.seconds * 1000000000 + t.nanoseconds) / 1000000).toNat := by
    simp only [milliseconds, sinceEpoch]
    split_ifs with hbefore
    · omega
    · omega
  rw [stamp, hmilliseconds]

namespace Diagnostic
open Json (Members)

variable {fields : Json}

theorem distinct_extra {P : Binary64 → Prop} (h : fields.IsValue P) : (extra fields).Distinct := by
  cases h with
  | object hsorted => exact hsorted.distinct
  | null => exact List.nodup_nil
  | _ => exact List.nodup_singleton _

theorem forall_mem_extra {P : Binary64 → Prop} (h : fields.IsValue P) :
    ∀ m ∈ extra fields, m.2.IsValue P ∧ m.2.nesting ≤ fields.nesting := by
  cases h with
  | @object ms hsorted h =>
    intro m hm
    have hdeep := Json.nesting_object_le_iff.1 (Nat.le_refl (Json.object ms).nesting) m hm
    exact ⟨h m hm, Nat.le_succ_of_le hdeep⟩
  | null => exact fun m hm => absurd hm List.not_mem_nil
  | bool b => exact List.forall_mem_singleton.2 ⟨.bool b, Nat.le_refl _⟩
  | int h => exact List.forall_mem_singleton.2 ⟨.int h, Nat.le_refl _⟩
  | float h => exact List.forall_mem_singleton.2 ⟨.float h, Nat.le_refl _⟩
  | str s => exact List.forall_mem_singleton.2 ⟨.str s, Nat.le_refl _⟩
  | array h => exact List.forall_mem_singleton.2 ⟨.array h, Nat.le_refl _⟩

theorem extra_of_other (hobject : ∀ ms, fields ≠ .object ms) (hnull : fields ≠ .null) :
    extra fields = [("detail", fields)] := by
  cases fields with
  | object ms => exact absurd rfl (hobject ms)
  | null => exact absurd rfl hnull
  | _ => rfl

theorem find?_frame_of_notMem {milliseconds : Nat} {level event key : String}
    (h : key ∉ ["component", "event", "level", "timestamp_ms"]) :
    (frame milliseconds level event).find? key = none :=
  Members.find?_eq_none h

/-- The members of a line: those of its frame, and the others under keys that the frame has not. -/
theorem exists_members (milliseconds : Nat) (level event : String) (h : (extra fields).Distinct) :
    ∃ ms : Members, record milliseconds level event fields = .object ms ∧ ms.Sorted ∧
      (∀ m ∈ ms, m ∈ frame milliseconds level event ∨ m ∈ extra fields) ∧
      ∀ key, ms.find? key =
        ((frame milliseconds level event).find? key).or ((extra fields).find? key) := by
  refine ⟨_, rfl, Members.sorted_sort _, fun m hm => ?_, fun key => ?_⟩
  · exact (List.mem_append.1 (Members.mem_sort hm)).symm.imp_right List.mem_of_mem_filter
  have hdistinct : Members.Distinct ((extra fields).filter
      (!(frame milliseconds level event).contains ·.1) ++ frame milliseconds level event) := by
    rw [Members.Distinct, List.map_append, List.nodup_append]
    refine ⟨h.sublist (List.filter_sublist.map _), by simp [frame], ?_⟩
    rintro k hk _ hframe rfl
    obtain ⟨m, hm, rfl⟩ := List.mem_map.1 hk
    obtain ⟨n, hn, hkey⟩ := List.mem_map.1 hframe
    have hfree := (List.mem_filter.1 hm).2
    simp only [Members.contains, Bool.not_eq_true', List.any_eq_false, decide_eq_true_eq] at hfree
    exact hfree n hn hkey
  rw [Members.find?_sort hdistinct, Members.find?_append,
    Members.find?_filter (!(frame milliseconds level event).contains ·), Members.contains_eq]
  cases (frame milliseconds level event).find? key <;> simp

theorem isValue_record {P : Binary64 → Prop} {milliseconds : Nat}
    (hms : milliseconds < Nat.pow 2 64) (level event : String) (h : fields.IsValue P) :
    (record milliseconds level event fields).IsValue P ∧
      (record milliseconds level event fields).nesting ≤ fields.nesting + 1 := by
  obtain ⟨ms, hrecord, hsorted, hmem, -⟩ :=
    exists_members milliseconds level event (distinct_extra h)
  have hframe : ∀ m ∈ frame milliseconds level event,
      m.2.IsValue P ∧ m.2.nesting ≤ fields.nesting := by
    simp only [frame, List.forall_mem_cons]
    refine ⟨⟨.str _, Nat.zero_le _⟩, ⟨.str _, Nat.zero_le _⟩, ⟨.str _, Nat.zero_le _⟩,
      ⟨.int (Json.isIntegral_of_lt hms), Nat.zero_le _⟩, fun m hm => absurd hm List.not_mem_nil⟩
  have hmembers : ∀ m ∈ ms, m.2.IsValue P ∧ m.2.nesting ≤ fields.nesting :=
    fun m hm => (hmem m hm).elim (hframe m) (forall_mem_extra h m)
  rw [hrecord]
  exact ⟨.object hsorted fun m hm => (hmembers m hm).1,
    Json.nesting_object_le_iff.2 fun m hm => (hmembers m hm).2⟩

/-- Whatever the fields are, the line is one line, without a character below the blank. It holds an
object whose time, level, component and event are those of the frame, and whose other members are the
other members of the fields, or the fields themselves as a detail. Every reader that goes as deep as
the object is nested, at most one level deeper than the fields, reads it, and every other refuses it
for that. The time is the number of milliseconds since 1970. -/
theorem line_unspoofed {t : WallTime} (ht : t.nanoseconds < 1000000000) (level event : String)
    (hfields : fields.IsValue Json.ReadsBack) :
    let text := line t.stamp level event fields
    let nanoseconds := t.seconds * 1000000000 + t.nanoseconds
    (∀ c ∈ text.toList, 32 ≤ c.toNat) ∧
    ∃ ms : Members, ms.Sorted ∧ (Json.object ms).nesting ≤ fields.nesting + 1 ∧
      (∀ depth, ((Json.object ms).nesting ≤ depth →
          Json.ofChars depth text.toList = .ok (.object ms)) ∧
        (depth < (Json.object ms).nesting →
          ∃ e, Json.ofChars depth text.toList = .error e ∧ e.cause = .tooDeep)) ∧
      ms.find? "timestamp_ms" =
        some (.nat (min (nanoseconds / 1000000).toNat (Nat.pow 2 64 - 1))) ∧
      ms.find? "level" = some (.str level) ∧
      ms.find? "component" = some (.str "bridge") ∧
      ms.find? "event" = some (.str event) ∧
      ∀ key ∉ ["component", "event", "level", "timestamp_ms"],
        (∀ own, fields = .object own → ms.find? key = Members.find? own key) ∧
        (fields = .null → ms.find? key = none) ∧
        ((∀ own, fields ≠ .object own) → fields ≠ .null →
          ms.find? key = if key = "detail" then some fields else none) := by
  intro text nanoseconds
  obtain ⟨ms, hrecord, hsorted, -, hfind⟩ :=
    exists_members t.stamp level event (distinct_extra hfields)
  have hstamp : t.stamp < Nat.pow 2 64 := Nat.lt_of_le_of_lt (Nat.min_le_right ..) (by decide)
  have htext : text.toList = Json.compactChars (.object ms) := by
    rw [← hrecord]
    exact Json.toList_compact _
  obtain ⟨hvalue, hnesting⟩ := isValue_record hstamp level event hfields
  rw [hrecord] at hvalue hnesting
  rw [htext]
  refine ⟨Json.printed_compactChars _, ms, hsorted, hnesting,
    fun depth => ⟨hvalue.ofChars_compactChars, hvalue.ofChars_of_deep⟩, ?_, ?_, ?_, ?_, ?_⟩
  · rw [hfind, ← WallTime.stamp_eq ht]
    simp [frame]
  · simp [hfind, frame]
  · simp [hfind, frame]
  · simp [hfind, frame]
  · intro key hkey
    rw [hfind, find?_frame_of_notMem hkey, Option.none_or]
    refine ⟨?_, ?_, ?_⟩
    · rintro own rfl
      rfl
    · rintro rfl
      rfl
    · intro hobject hnull
      rw [extra_of_other hobject hnull, Members.find?_cons, Members.find?_nil]
      simp [eq_comm]

theorem line_unspoofed_nested :
    let t : WallTime := ⟨1700000000, 123456789⟩
    let fields : Json := .object [("event", .str "spoofed"),
      ("rate", .float ⟨4609434218613702656⟩), ("x\n", .array [.null, .int (-5)])]
    t.nanoseconds < 1000000000 ∧ fields.IsValue Json.ReadsBack ∧
    ∃ ms : Members, Json.read (line t.stamp "info" "sorted" fields) = .ok (.object ms) ∧
      ms.find? "event" = some (.str "sorted") ∧
      ms.find? "timestamp_ms" = some (.nat 1700000000123) ∧
      ms.find? "x\n" = some (.array [.null, .int (-5)]) := by
  intro t fields
  have hfields : fields.IsValue Json.ReadsBack := by
    refine .object (by unfold Members.Sorted; decide) ?_
    simp only [List.forall_mem_cons]
    refine ⟨.str _, .float (by decide +kernel), .array ?_, fun m hm => absurd hm List.not_mem_nil⟩
    simp only [List.forall_mem_cons]
    exact ⟨.null, .int (by decide), fun m hm => absurd hm List.not_mem_nil⟩
  have ht : t.nanoseconds < 1000000000 := by decide
  obtain ⟨-, ms, -, hnesting, hread, htime, -, -, hevent, hother⟩ :=
    line_unspoofed ht "info" "sorted" hfields
  have hclock : min ((1700000000 * 1000000000 + (123456789 : Nat) : Int) / 1000000).toNat
      (Nat.pow 2 64 - 1) = 1700000000123 := by decide
  refine ⟨ht, hfields, ms, (hread Json.maxDepth).1 (Nat.le_trans hnesting (by decide)), hevent,
    htime.trans (congrArg (fun n => some (Json.nat n)) hclock), ?_⟩
  rw [(hother "x\n" (by decide)).1 _ rfl]
  simp

/-- An array in an array, and so on. -/
def nested : Nat → Json
  | 0 => .null
  | n + 1 => .array [nested n]

theorem isValue_nested (P : Binary64 → Prop) (n : Nat) : (nested n).IsValue P := by
  induction n with
  | zero => exact .null
  | succ n ih => exact .array (List.forall_mem_singleton.2 ih)

/-- The fields are nested as deep as can be read, so the line is nested too deep. -/
theorem line_unread : (nested 127).IsValue Json.ReadsBack ∧
    ∃ e, Json.read (line 0 "info" "e" (nested 127)) = .error e ∧ e.cause = .tooDeep := by
  have hfields := isValue_nested Json.ReadsBack 127
  have hdeep : Json.maxDepth < (record 0 "info" "e" (nested 127)).nesting := by decide +kernel
  have hvalue := (isValue_record (by decide : 0 < Nat.pow 2 64) "info" "e" hfields).1
  obtain ⟨e, he, hcause⟩ := hvalue.ofChars_of_deep hdeep
  rw [← Json.toList_compact] at he
  exact ⟨hfields, e, he, hcause⟩

end Diagnostic
end CallBridge
