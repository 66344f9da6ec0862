import CallBridge.Proofs.Log.Written
import CallBridge.Proofs.Text.Padded
import Mathlib.Data.List.Nodup

/-!
# Numbers and lines of an emitter

Trace ids are given out in the order of their numbers, and a trace id tells the kind and the name of
its run and its number (`traceId_inj`): up to the first colon stands the kind, behind the last one
the number, and all that is in between, colons or not, belongs to the name. What an emitter wrote
falls into the lines of its entries again, since no line holds a line feed
(`numbered_and_framed`).
-/

namespace CallBridge.Log

/-! ### Trace ids -/

section
variable {c : Char} {a b s t : List Char}

theorem append_cons_inj_front (ha : c ∉ a) (hb : c ∉ b) (h : a ++ c :: s = b ++ c :: t) :
    a = b ∧ s = t := by
  induction a generalizing b with
  | nil =>
    cases b with
    | nil => simpa using h
    | cons d b =>
      obtain ⟨rfl, -⟩ := List.cons.inj h
      simp at hb
  | cons d a ih =>
    cases b with
    | nil =>
      obtain ⟨rfl, -⟩ := List.cons.inj h
      simp at ha
    | cons e b =>
      obtain ⟨rfl, htail⟩ := List.cons.inj h
      rw [List.mem_cons, not_or] at ha hb
      obtain ⟨rfl, rfl⟩ := ih ha.2 hb.2 htail
      exact ⟨rfl, rfl⟩

theorem append_cons_inj_back (hs : c ∉ s) (ht : c ∉ t) (h : a ++ c :: s = b ++ c :: t) :
    a = b ∧ s = t := by
  have hreverse := congrArg List.reverse h
  simp only [List.reverse_append, List.reverse_cons, List.append_assoc, List.singleton_append]
    at hreverse
  have hback := append_cons_inj_front (by simpa using hs) (by simpa using ht) hreverse
  exact ⟨List.reverse_inj.1 hback.2, List.reverse_inj.1 hback.1⟩

end

theorem RunKind.name_inj {k k' : RunKind} (h : k.name.toList = k'.name.toList) : k = k' := by
  cases k <;> cases k' <;> first | rfl | exact absurd h (by decide)

theorem toList_traceId (kind : RunKind) (runId : String) (number : Nat) :
    (traceId kind runId number).toList = kind.name.toList ++
      ':' :: ':' :: (runId.toList ++ [':'] ++ ':' :: (Text.padded 3 number).toList) := by
  simp [traceId, toString, String.toList_append]

theorem traceId_inj {k k' : RunKind} {r r' : String} {n n' : Nat} :
    traceId k r n = traceId k' r' n' ↔ k = k' ∧ r = r' ∧ n = n' := by
  constructor
  · intro h
    have hlist := congrArg String.toList h
    rw [toList_traceId, toList_traceId] at hlist
    have hcolon : ∀ k : RunKind, ':' ∉ k.name.toList := by intro k; cases k <;> decide
    obtain ⟨hkind, hrest⟩ := append_cons_inj_front (hcolon k) (hcolon k') hlist
    obtain ⟨hrun, hnumber⟩ := append_cons_inj_back (Validation.colon_notMem_padded 3 n)
      (Validation.colon_notMem_padded 3 n') (List.cons.inj hrest).2
    exact ⟨RunKind.name_inj hkind, String.toList_inj.1 (List.append_cancel_right hrun),
      Text.padded_inj.1 hnumber⟩
  · rintro ⟨rfl, rfl, rfl⟩
    rfl

namespace Emitter

/-! ### Calls -/

/-- What an emitter is asked for. -/
inductive Call where
  | entry (timestamp : String) (level : Level) (event : String)
  | emit (timestamp : String) (level : Level) (event : String)
  | emitEntry (e : Entry)

/-- What came of a call: the trace id it gave out and the entry it wrote, if it did. -/
structure Deed where
  traceId : Option String := none
  written : Option Entry := none

def perform (log : Emitter) : Call → Deed × Emitter
  | .entry timestamp level event =>
    let (e, log) := log.entry timestamp level event
    ({ traceId := some e.traceId }, log)
  | .emit timestamp level event =>
    let (e, log) := log.emit timestamp level event
    ({ traceId := some e.traceId, written := some e }, log)
  | .emitEntry e =>
    let whole := (log.complete e).1
    let traceId := if e.traceId = "" then some whole.traceId else none
    ({ traceId, written := some whole }, log.emitEntry e)

def performAll : Emitter → List Call → List Deed × Emitter
  | log, [] => ([], log)
  | log, call :: calls =>
    let (deed, log) := log.perform call
    let (deeds, log) := log.performAll calls
    (deed :: deeds, log)

/-- What each call comes to in a run of some kind, with the trace id it is given. -/
inductive Answers (kind : RunKind) : Call → Deed → Prop
  | entry (timestamp : String) (level : Level) (event id : String) :
    Answers kind (.entry timestamp level event) ⟨some id, none⟩
  | emit (timestamp : String) (level : Level) (event id : String) :
    Answers kind (.emit timestamp level event)
      ⟨some id, some { timestamp, traceId := id, level, event, runKind := some kind }⟩
  | completed {e : Entry} (h : e.traceId = "") (id : String) :
    Answers kind (.emitEntry e)
      ⟨some id, some { e with traceId := id, runKind := some (e.runKind.getD kind) }⟩
  | preset {e : Entry} (h : e.traceId ≠ "") :
    Answers kind (.emitEntry e) ⟨none, some { e with runKind := some (e.runKind.getD kind) }⟩

/-- The trace ids that were given out. -/
def given (deeds : List Deed) : List String := deeds.filterMap (·.traceId)

/-- The texts of the entries that were written. -/
def texts (deeds : List Deed) : List String := (deeds.filterMap (·.written)).map (·.line)

/-- The deeds took the next numbers, one each for a trace id, and added their lines. -/
structure Did (log : Emitter) (deeds : List Deed) (log' : Emitter) : Prop where
  after : log' = { log with
    issued := log.issued + (given deeds).length
    lines := log.lines ++ texts deeds }
  given : given deeds =
    (List.range' (log.issued + 1) (given deeds).length).map (traceId log.kind log.runId)

variable {log log₁ log₂ : Emitter} {ds ds' : List Deed}

theorem Did.append (h : log.Did ds log₁) (h' : log₁.Did ds' log₂) : log.Did (ds ++ ds') log₂ := by
  obtain ⟨rfl, hids⟩ := h
  obtain ⟨rfl, hids'⟩ := h'
  have hgiven : Emitter.given (ds ++ ds') = Emitter.given ds ++ Emitter.given ds' :=
    List.filterMap_append ..
  have hlines : log.lines ++ texts ds ++ texts ds' = log.lines ++ texts (ds ++ ds') :=
    Array.toList_inj.1 (by simp [texts])
  constructor
  · simp only [hlines, hgiven, List.length_append, Nat.add_assoc]
  · rw [hgiven, List.length_append, ← List.range'_append_1, List.map_append, Nat.add_right_comm,
      ← hids, ← hids']

/-- One call. -/
theorem perform_spec (log : Emitter) (call : Call) :
    Answers log.kind call (log.perform call).1 ∧
      log.Did [(log.perform call).1] (log.perform call).2 := by
  cases call with
  | entry timestamp level event =>
    refine ⟨.entry .., ?_, ?_⟩
    · simp [perform, entry, nextTraceId, given, texts]
    · simp [perform, entry, nextTraceId, given]
  | emit timestamp level event =>
    refine ⟨.emit .., ?_, ?_⟩
    · simp [perform, emit, entry, nextTraceId, write, given, texts]
    · simp [perform, emit, entry, nextTraceId, given]
  | emitEntry e =>
    by_cases h : e.traceId = ""
    · refine ⟨?_, ?_, ?_⟩
      · simpa [perform, complete, nextTraceId, h] using
          Answers.completed h (traceId log.kind log.runId (log.issued + 1))
      · simp [perform, emitEntry, complete, nextTraceId, write, given, texts, h]
      · simp [perform, complete, nextTraceId, given, h]
    · refine ⟨?_, ?_, ?_⟩
      · simpa [perform, complete, h] using Answers.preset h
      · simp [perform, emitEntry, complete, write, given, texts, h]
      · simp [perform, given, h]

/-- Any calls, one after the other. -/
theorem performAll_spec (log : Emitter) (calls : List Call) :
    List.Forall₂ (Answers log.kind) calls (log.performAll calls).1 ∧
      log.Did (log.performAll calls).1 (log.performAll calls).2 := by
  induction calls generalizing log with
  | nil => exact ⟨.nil, by simp [performAll, given, texts], rfl⟩
  | cons call calls ih =>
    obtain ⟨hanswers, hdid⟩ := log.perform_spec call
    obtain ⟨hlater, hrest⟩ := ih (log.perform call).2
    have hkind : (log.perform call).2.kind = log.kind := by rw [hdid.after]
    rw [hkind] at hlater
    exact ⟨.cons hanswers hlater, hdid.append hrest⟩

/-! ### From the beginning -/

theorem given_performAll (kind : RunKind) (runId : String) (calls : List Call) :
    let ids := given (performAll { kind, runId } calls).1
    ids = (List.range' 1 ids.length).map (traceId kind runId) :=
  (performAll_spec { kind, runId } calls).2.given

theorem nodup_given (kind : RunKind) (runId : String) (calls : List Call) :
    (given (performAll { kind, runId } calls).1).Nodup := by
  rw [given_performAll]
  refine List.Nodup.map ?_ List.nodup_range'
  intro n n' h
  exact (traceId_inj.1 h).2.2

/-- Emitters of two runs have no trace id in common. -/
theorem disjoint_given {kind kind' : RunKind} {runId runId' : String}
    (h : ¬(kind = kind' ∧ runId = runId')) (calls calls' : List Call) :
    List.Disjoint (given (performAll { kind, runId } calls).1)
      (given (performAll { kind := kind', runId := runId' } calls').1) := by
  intro id hid hid'
  rw [given_performAll] at hid hid'
  obtain ⟨n, -, rfl⟩ := List.mem_map.1 hid
  obtain ⟨n', -, heq⟩ := List.mem_map.1 hid'
  obtain ⟨rfl, rfl, -⟩ := traceId_inj.1 heq
  exact h ⟨rfl, rfl⟩

theorem isLine_of_mem_texts {l : String} (hl : l ∈ texts ds) : Text.IsLine l.toList := by
  obtain ⟨e, -, rfl⟩ := List.mem_map.1 hl
  exact e.isLine_line

theorem text_performAll (kind : RunKind) (runId : String) (calls : List Call) :
    let run := performAll { kind, runId } calls
    run.2.text = Text.ofLines (texts run.1) := by
  intro run
  have hafter := (performAll_spec { kind, runId } calls).2.after
  change run.2 = _ at hafter
  rw [hafter, text]
  simp [run]

/-- Whatever an emitter is asked for, the k-th trace id it gives out names its run and the number k,
no trace id is given out twice, by it or by an emitter of another run, and its text is one line for
each entry written, in this order, which is found again by splitting at line feeds. -/
theorem numbered_and_framed (kind : RunKind) (runId : String) (calls : List Call) :
    let run := performAll { kind, runId } calls
    let ids := given run.1
    List.Forall₂ (Answers kind) calls run.1 ∧
    ids = (List.range ids.length).map (fun k =>
      kind.name ++ "::" ++ runId ++ "::" ++ Text.padded 3 (k + 1)) ∧
    ids.Nodup ∧
    (∀ (kind' : RunKind) (runId' : String) (calls' : List Call), ¬(kind = kind' ∧ runId = runId') →
      ids.Disjoint (given (performAll { kind := kind', runId := runId' } calls').1)) ∧
    run.2.text = String.join ((texts run.1).map (· ++ "\n")) ∧
    Text.splitChars '\n' run.2.text.toList = (texts run.1).map String.toList ++ [[]] ∧
    Text.lines run.2.text = (texts run.1).map String.toList := by
  intro run ids
  have htext : run.2.text = Text.ofLines (texts run.1) := text_performAll kind runId calls
  have hlist : run.2.text.toList = ((texts run.1).map String.toList).flatMap (· ++ ['\n']) ++ [] := by
    rw [htext, Text.toList_ofLines, List.append_nil]
  have hline : ∀ l ∈ (texts run.1).map String.toList, Text.IsLine l := by
    intro l hl
    obtain ⟨text, htext, rfl⟩ := List.mem_map.1 hl
    exact isLine_of_mem_texts htext
  refine ⟨(performAll_spec { kind, runId } calls).1, ?_, nodup_given kind runId calls,
    fun kind' runId' calls' h => disjoint_given h calls calls', htext, ?_, ?_⟩
  · have hids : ids = _ := given_performAll kind runId calls
    rw [List.range'_eq_map_range, List.map_map] at hids
    refine hids.trans (List.map_congr_left fun k _ => ?_)
    rw [Function.comp_apply, Nat.add_comm]
    rfl
  · rw [hlist, Text.splitChars_flatMap (fun l hl => (hline l hl).feed) List.not_mem_nil]
  · rw [Text.lines_of_isLine hlist hline (.inl rfl)]
    simp

/-- The name of one run continues that of the other, with a number. -/
theorem numbered_and_framed_nested :
    let calls : List Call := [.emit "t" .info "start", .entry "t" .info "left out",
      .emitEntry { timestamp := "t", traceId := "", level := .warn, event := "a\nb\r\n\"" }]
    let calls' : List Call := [.emitEntry { timestamp := "", traceId := "x", level := .info, event := "" },
      .emit "t" .info "start"]
    let run := performAll { kind := .bench, runId := "a" } calls
    let run' := performAll { kind := .bench, runId := "a::001" } calls'
    given run.1 = ["bench::a::001", "bench::a::002", "bench::a::003"] ∧
      given run'.1 = ["bench::a::001::001"] ∧
      ¬(RunKind.bench = .bench ∧ "a" = "a::001") ∧ (given run.1).Disjoint (given run'.1) ∧
      (Text.splitChars '\n' run.2.text.toList).length = 3 := by
  intro calls calls' run run'
  have hother : ¬(RunKind.bench = .bench ∧ "a" = "a::001") := by decide
  obtain ⟨-, -, -, hdisjoint, -, hsplit, -⟩ := numbered_and_framed .bench "a" calls
  refine ⟨by decide, by decide, hother, hdisjoint .bench "a::001" calls' hother, ?_⟩
  rw [hsplit]
  rfl

end Emitter
end CallBridge.Log
