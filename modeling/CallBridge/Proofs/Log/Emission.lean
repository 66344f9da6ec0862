import CallBridge.Log.Emitter
import CallBridge.Proofs.Log.RoundTrip

/-!
# The lines of an emitter

A trace id is put together from the kind of the run, the run's name and a number; the validator
counts the parts between separators. Kind and number have no colon in them, so what is put together
has three parts exactly when the name of the run does not contain the separator
(`parts_traceId_iff`). This decides alone whether the lines of an emitter are valid
(`emitted_valid_iff`).
-/

namespace CallBridge.Log
open Json (Members)

namespace Validation

/-! ### Counting parts -/

/-- What stands between the parts of a trace id. -/
def separator : List Char := [':', ':']

theorem parts_separator (s : List Char) : parts (separator ++ s) = parts s + 1 := rfl

theorem separator_prefix_cons {c : Char} {s : List Char} :
    separator <+: c :: s ↔ c = ':' ∧ [':'] <+: s := by
  rw [separator, List.cons_prefix_cons, eq_comm]

/-- A character counts for nothing unless a separator begins with it. -/
theorem parts_cons {c : Char} {s : List Char} (h : ¬ separator <+: c :: s) :
    parts (c :: s) = parts s := by
  rw [parts]
  rintro rest rfl rfl
  exact h ⟨rest, rfl⟩

theorem parts_append_of_notMem {s : List Char} (h : ':' ∉ s) (rest : List Char) :
    parts (s ++ rest) = parts rest := by
  induction s with
  | nil => rfl
  | cons c s ih =>
    rw [List.mem_cons, not_or] at h
    refine (parts_cons fun hprefix => ?_).trans (ih h.2)
    exact h.1 (separator_prefix_cons.1 hprefix).1.symm

theorem parts_of_notMem {s : List Char} (h : ':' ∉ s) : parts s = 1 := by
  have hparts := parts_append_of_notMem h []
  rwa [List.append_nil] at hparts

/-- A character that begins no separator counts for nothing in front of one either. Should it be the
last of the text and a colon, it is cut off together with the colon behind it. -/
theorem parts_cons_append {c : Char} {s tail : List Char} (h : ¬ separator <+: c :: s)
    (htail : ':' ∉ tail) :
    parts (c :: s ++ separator ++ tail) = parts (s ++ separator ++ tail) := by
  cases s with
  | nil =>
    by_cases hc : c = ':'
    · subst hc
      have hcolon : ¬ separator <+: ':' :: tail := by
        intro hprefix
        exact htail ((separator_prefix_cons.1 hprefix).2.subset (List.mem_singleton_self _))
      exact congrArg (· + 1) (parts_cons hcolon)
    · exact parts_cons fun hprefix => hc (separator_prefix_cons.1 hprefix).1
  | cons d s =>
    refine parts_cons fun hprefix => h ?_
    obtain ⟨hc, hd⟩ := separator_prefix_cons.1 hprefix
    exact separator_prefix_cons.2 ⟨hc, List.cons_prefix_cons.2 ⟨(List.cons_prefix_cons.1 hd).1,
      List.nil_prefix⟩⟩

theorem not_separator_first {c : Char} {s : List Char}
    (h : ∀ rest, c = ':' → s = ':' :: rest → False) : ¬ separator <+: c :: s := by
  rintro ⟨rest, hrest⟩
  obtain ⟨rfl, rfl⟩ := List.cons.inj hrest
  exact h rest rfl rfl

theorem two_le_parts {tail : List Char} (htail : ':' ∉ tail) (s : List Char) :
    2 ≤ parts (s ++ separator ++ tail) := by
  fun_induction parts s with
  | case1 s ih => exact Nat.le_succ_of_le ih
  | case2 c s hno ih =>
    rwa [parts_cons_append (not_separator_first hno) htail]
  | case3 => exact Nat.succ_le_succ (parts_of_notMem htail).ge

/-- A text with a separator behind it and no colon behind that has two parts, unless it contains a
separator itself. -/
theorem parts_append_separator_iff {tail : List Char} (htail : ':' ∉ tail) (s : List Char) :
    parts (s ++ separator ++ tail) = 2 ↔ ¬ separator <:+: s := by
  fun_induction parts s with
  | case1 s _ =>
    have htwo := two_le_parts htail s
    refine iff_of_false (fun h => ?_) fun h => h (List.prefix_append separator s).isInfix
    change parts (s ++ separator ++ tail) + 1 = 2 at h
    omega
  | case2 c s hno ih =>
    have hprefix := not_separator_first hno
    rw [parts_cons_append hprefix htail, ih, List.infix_cons_iff, or_iff_right hprefix]
  | case3 =>
    refine iff_of_true ?_ (by decide)
    change parts tail + 1 = 2
    rw [parts_of_notMem htail]

theorem colon_notMem_padded (width n : Nat) : ':' ∉ (Text.padded width n).toList := by
  simp only [Text.padded, String.toList_ofList, List.mem_append, List.mem_replicate, not_or]
  refine ⟨fun h => absurd h.2 (by decide), fun h => ?_⟩
  have hdigit : ':'.isDigit := Nat.isDigit_of_mem_toDigits (by decide) (by decide) h
  exact absurd hdigit (by decide)

/-- A trace id has three parts unless the name of the run contains a separator. -/
theorem parts_traceId_iff (kind : RunKind) (runId : String) (number : Nat) :
    parts (traceId kind runId number).toList = 3 ↔ ¬ separator <:+: runId.toList := by
  have htext : (traceId kind runId number).toList = kind.name.toList ++
      (separator ++ (runId.toList ++ separator ++ (Text.padded 3 number).toList)) := by
    simp [traceId, separator, String.toList_append, toString]
  have hname : ':' ∉ kind.name.toList := by cases kind <;> decide
  rw [htext, parts_append_of_notMem hname, parts_separator, Nat.succ_inj]
  exact parts_append_separator_iff (colon_notMem_padded 3 number) runId.toList

/-! ### Reading a written line -/

variable {e : Entry} {ms : Members}

/-- A line whose members can be decoded is valid, unless its members have defects. -/
theorem line_of_decode {text : List Char}
    (hread : Json.ofChars Json.maxDepth text = .ok (.object ms))
    (hdecode : Entry.decode (.object ms) = .ok e) (n : Nat) :
    line n text = match defects ms with
      | [] => .ok e
      | ds => .error (ds.map fun d => ⟨n, d.1, d.2⟩) := by
  unfold line entryOf
  rw [hread]
  dsimp only
  cases defects ms with
  | nil =>
    dsimp only
    rw [hdecode]
    rfl
  | cons d ds => rfl

/-- What is wrong with a trace id that has not three parts. -/
def wrongParts (id : String) : String × String :=
  ("trace_id", wrong "trace_id should follow <run_kind>::<run_id>::<seq> format, got" id)

/-- An entry that keeps all other rules has a defect only in its trace id. -/
theorem defects_of_fits (h : e.Fits ms)
    (hinput : ∀ i, e.input = some i → i ∈ Bench.Arrangement.all.map (·.name))
    (hshape : e.event = measurementEvent → ms.contains "shape")
    (hproperty : e.event = propertyEvent → ∃ p, e.property = some p ∧ isFilled p) :
    defects ms = if parts e.traceId.toList = 3 then [] else [wrongParts e.traceId] := by
  have hid : textField ms "trace_id" = some e.traceId :=
    textField_eq_some_iff.2 (Members.holds_string_iff.1 h.traceId)
  simp only [defects, missingFields_eq_nil h, (wrongWords_eq_nil_iff h).2 hinput,
    (missingSubjects_eq_nil_iff h).2 ⟨hshape, hproperty⟩, List.nil_append, wrongTraceId, refused,
    hid, decide_eq_true_eq]
  rfl

end Validation

/-! ### Emitting -/

/-- What an emitter is asked to log: an event, when it happened and how severe it is. -/
structure Occurrence where
  timestamp : String
  level : Level
  event : String

/-- The entry for an occurrence that is given a number in a run. -/
def Occurrence.entry (kind : RunKind) (runId : String) (number : Nat) (o : Occurrence) : Entry :=
  { timestamp := o.timestamp, traceId := traceId kind runId number, level := o.level
    event := o.event, runKind := some kind }

namespace Emitter

/-- Emit one occurrence after the other; the entries are what was answered. -/
def emitAll : Emitter → List Occurrence → List Entry × Emitter
  | e, [] => ([], e)
  | e, o :: os =>
    let (entry, e) := e.emit o.timestamp o.level o.event
    let (entries, e) := e.emitAll os
    (entry :: entries, e)

theorem emitAll_eq (e : Emitter) (os : List Occurrence) :
    let entries := os.mapIdx fun i o => o.entry e.kind e.runId (e.issued + i + 1)
    e.emitAll os = (entries, { e with
      issued := e.issued + os.length
      lines := e.lines ++ entries.map (·.line) }) := by
  induction os generalizing e with
  | nil => simp [emitAll]
  | cons o os ih =>
    have hnumber : ∀ i, e.issued + 1 + i + 1 = e.issued + (i + 1) + 1 := fun i => by omega
    simp only [emitAll, emit, entry, nextTraceId, write, ih, List.mapIdx_cons, Nat.add_zero,
      hnumber]
    simp [Occurrence.entry, Nat.add_comm, Nat.add_left_comm]

end Emitter

namespace Validation

/-- The line of an occurrence that asks for no further field. -/
theorem line_entry {o : Occurrence} (hevent : o.event ≠ measurementEvent ∧ o.event ≠ propertyEvent)
    (kind : RunKind) (runId : String) (number n : Nat) :
    let e := o.entry kind runId number
    line n e.line.toList = if parts e.traceId.toList = 3 then .ok e
      else .error [⟨n, (wrongParts e.traceId).1, (wrongParts e.traceId).2⟩] := by
  intro e
  have hrange : e.InRange := ⟨nofun, nofun, nofun⟩
  have hdetails : e.FlatDetails := nofun
  have hfits := Entry.fits_readMembers hrange hdetails
  have hread := Entry.ofChars_line hrange hdetails (List.forall_mem_nil _)
  have hdefects := defects_of_fits hfits nofun (fun h => absurd h hevent.1)
    fun h => absurd h hevent.2
  have hdecode := hfits.decode (Members.sorted_sort _).distinct
  rw [line_of_decode hread hdecode n, hdefects]
  split_ifs <;> rfl

/-- What an emitter writes is valid, and decoded as the entry that was answered, if the name of the
run does not contain a separator. If it does, every line is refused for its trace id. -/
theorem emitted_valid_iff (kind : RunKind) (runId : String) (os : List Occurrence)
    (hevents : ∀ o ∈ os, o.event ≠ measurementEvent ∧ o.event ≠ propertyEvent) :
    let run := Emitter.emitAll { kind, runId } os
    run.1.length = os.length ∧ run.2.lines.size = os.length ∧
      ∀ (i : Nat) (e : Entry) (written : String), run.1[i]? = some e →
        run.2.lines[i]? = some written → ∀ n,
          (¬ separator <:+: runId.toList → line n written.toList = .ok e) ∧
          (separator <:+: runId.toList → line n written.toList =
            .error [⟨n, (wrongParts e.traceId).1, (wrongParts e.traceId).2⟩]) := by
  intro run
  have hrun : run = _ := Emitter.emitAll_eq { kind, runId } os
  rw [hrun]
  refine ⟨by simp, by simp, fun i e written he hwritten n => ?_⟩
  rw [List.getElem?_mapIdx] at he
  obtain ⟨o, ho, rfl⟩ := Option.map_eq_some_iff.1 he
  obtain rfl : (o.entry kind runId (0 + i + 1)).line = written := by simpa [ho] using hwritten
  have hline := line_entry (hevents o (List.mem_of_getElem? ho)) kind runId (0 + i + 1) n
  have hparts := parts_traceId_iff kind runId (0 + i + 1)
  refine ⟨fun hid => ?_, fun hid => ?_⟩
  · rw [hline]
    exact if_pos (hparts.2 hid)
  · rw [hline]
    exact if_neg fun h => hparts.1 h hid

theorem emitted_valid_iff_colons :
    let os : List Occurrence := [⟨"t", .info, "start"⟩, ⟨"", .fatal, "a \"b\"::\u00e9\n"⟩]
    let run := Emitter.emitAll { kind := .bindFailure, runId := ":a:b:" } os
    (∀ o ∈ os, o.event ≠ measurementEvent ∧ o.event ≠ propertyEvent) ∧
      ∃ e written, run.1[1]? = some e ∧ run.2.lines[1]? = some written ∧
        e.traceId = "bind_failure:::a:b:::002" ∧ line 7 written.toList = .ok e := by
  intro os run
  have hevents : ∀ o ∈ os, o.event ≠ measurementEvent ∧ o.event ≠ propertyEvent := by decide
  obtain ⟨-, -, h⟩ := emitted_valid_iff .bindFailure ":a:b:" os hevents
  exact ⟨hevents, _, _, rfl, rfl, rfl, (h 1 _ _ rfl rfl 7).1 (by decide)⟩

/-- A name with a separator in it makes a trace id of four parts, which the validator refuses. -/
theorem emitted_refused_separator :
    let o : Occurrence := ⟨"t", .info, "start"⟩
    let run := Emitter.emitAll { kind := .bench, runId := "a::b" } [o]
    o.event ≠ measurementEvent ∧ o.event ≠ propertyEvent ∧
      ∃ written, run.2.lines = #[written] ∧ ∀ n e, line n written.toList ≠ .ok e := by
  intro o run
  have hevent : o.event ≠ measurementEvent ∧ o.event ≠ propertyEvent := by decide
  refine ⟨hevent.1, hevent.2, _, rfl, fun n e => ?_⟩
  have hparts : parts (traceId .bench "a::b" 1).toList ≠ 3 := by decide
  have hline := (line_entry hevent .bench "a::b" 1 n).trans (if_neg hparts)
  exact fun h => nomatch hline.symm.trans h

end Validation
end CallBridge.Log
