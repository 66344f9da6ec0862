import CallBridge.Log.Validation
import CallBridge.Proofs.Text.Lines
import Mathlib.Data.List.Enum

/-!
# Validation line by line

The lines of a log are numbered by the line feeds before them, blank or not, and what is wrong with a
line depends on its number only in that it is told. So a text behind a text that ends in a line feed
is validated as it would be alone, but for its numbers (`log_append`).
-/

namespace CallBridge.Log.Validation

/-! ### Numbers -/

/-- The parts of a text with their numbers, trimmed, without the blank ones. -/
def numberedFrom (first : Nat) (parts : List (List Char)) : List (Nat × List Char) :=
  (parts.zipIdx first).filterMap fun (l, number) =>
    let l := Text.trimChars l
    if l.isEmpty then none else some (number, l)

theorem numberedFrom_cons (first : Nat) (l : List Char) (parts : List (List Char)) :
    numberedFrom first (l :: parts) =
      (if Text.trimChars l = [] then [] else [(first, Text.trimChars l)]) ++
        numberedFrom (first + 1) parts := by
  rw [numberedFrom, List.zipIdx_cons, List.filterMap_cons]
  by_cases hl : Text.trimChars l = [] <;> simp [numberedFrom, hl]

theorem numberedFrom_append (first : Nat) (parts parts' : List (List Char)) :
    numberedFrom first (parts ++ parts') =
      numberedFrom first parts ++ numberedFrom (first + parts.length) parts' := by
  rw [numberedFrom, List.zipIdx_append, List.filterMap_append]
  rfl

theorem numberedFrom_add (first m : Nat) (parts : List (List Char)) :
    numberedFrom (first + m) parts = (numberedFrom first parts).map fun p => (p.1 + m, p.2) := by
  induction parts generalizing first with
  | nil => rfl
  | cons l parts ih =>
    rw [numberedFrom_cons, numberedFrom_cons, Nat.add_right_comm, ih, List.map_append]
    split <;> rfl

theorem length_numberedFrom (first : Nat) (parts : List (List Char)) :
    (numberedFrom first parts).length = parts.countP fun l => Text.trimChars l ≠ [] := by
  induction parts generalizing first with
  | nil => rfl
  | cons l parts ih =>
    rw [numberedFrom_cons, List.length_append, ih, List.countP_cons]
    by_cases hl : Text.trimChars l = [] <;> simp [hl, Nat.add_comm]

theorem flatMap_numberedFrom {α : Type} (f : Nat → List Char → List α) (first : Nat)
    (parts : List (List Char)) :
    ((numberedFrom first parts).flatMap fun p => f p.1 p.2) = (parts.zipIdx first).flatMap fun p =>
      if Text.trimChars p.1 = [] then [] else f p.2 (Text.trimChars p.1) := by
  induction parts generalizing first with
  | nil => rfl
  | cons l parts ih =>
    rw [numberedFrom_cons, List.flatMap_append, ih, List.zipIdx_cons, List.flatMap_cons]
    split <;> simp

theorem numbered_eq (s : String) : numbered s = numberedFrom 1 (Text.lines s) := rfl

/-- Blank parts are left out, so it makes no difference what stands at the end of a line. -/
theorem numberedFrom_lines (s : String) :
    numberedFrom 1 (Text.lines s) = numberedFrom 1 (Text.splitChars '\n' s.toList) := by
  obtain ⟨ended, rest, hsplit, -⟩ := Text.splitChars_spec '\n' s.toList
  have hended : ∀ first, numberedFrom first (ended.map Text.dropReturn) = numberedFrom first ended := by
    intro first
    simp [numberedFrom, List.zipIdx_map, List.filterMap_map, Text.trimChars_dropReturn]
  rw [Text.lines_of_splitChars hsplit, hsplit, numberedFrom_append, numberedFrom_append, hended,
    List.length_map]
  split
  · next hrest =>
    subst hrest
    rfl
  · rfl

/-- A text behind one that ends in a line feed is numbered on from there. -/
theorem numbered_append {a : String} (ha : a.toList.getLast? = some '\n') (b : String) :
    numbered (a ++ b) =
      numbered a ++ (numbered b).map fun p => (p.1 + (Text.lines a).length, p.2) := by
  obtain ⟨front, hfront⟩ := List.getLast?_eq_some_iff.1 ha
  have ha' : Text.splitChars '\n' a.toList = Text.splitChars '\n' front ++ [[]] := by
    rw [hfront, Text.splitChars_append_cons]
    rfl
  have hab : Text.splitChars '\n' (a ++ b).toList =
      Text.splitChars '\n' front ++ Text.splitChars '\n' b.toList := by
    rw [String.toList_append, hfront, List.append_assoc, List.singleton_append,
      Text.splitChars_append_cons]
  have hlines : (Text.lines a).length = (Text.splitChars '\n' front).length := by
    simp [Text.lines_of_splitChars ha']
  have hblank : numberedFrom (1 + (Text.splitChars '\n' front).length) [[]] = [] := rfl
  rw [numbered_eq, numbered_eq, numbered_eq, numberedFrom_lines, numberedFrom_lines,
    numberedFrom_lines, hab, ha', numberedFrom_append, numberedFrom_append, hblank, List.append_nil,
    hlines, numberedFrom_add]

/-! ### Defects -/

/-- The defect further down in the text. -/
def raised (m : Nat) (d : Defect) : Defect := { d with line := d.line + m }

theorem defectsOf_add (number m : Nat) (l : List Char) :
    defectsOf (number + m) l = (defectsOf number l).map (raised m) := by
  unfold defectsOf line
  cases Json.ofChars Json.maxDepth l with
  | error e => rfl
  | ok j =>
    cases hentry : entryOf j with
    | ok e => simp [hentry, Except.mapError]
    | error ds => simp [hentry, Except.mapError, raised]

theorem log_append {a : String} (ha : a.toList.getLast? = some '\n') (b : String) :
    log (a ++ b) = ((log a).1 + (log b).1,
      (log a).2 ++ (log b).2.map (raised (Text.lines a).length)) := by
  have hraised : ∀ p : Nat × List Char, defectsOf (p.1 + (Text.lines a).length) p.2 =
      (defectsOf p.1 p.2).map (raised (Text.lines a).length) := fun p => defectsOf_add ..
  simp [log, numbered_append ha, List.flatMap_map, hraised, List.map_flatMap]

theorem log_eq (s : String) :
    log s = ((Text.lines s).countP fun l => Text.trimChars l ≠ [],
      ((Text.lines s).zipIdx 1).flatMap fun p =>
        if Text.trimChars p.1 = [] then [] else defectsOf p.2 (Text.trimChars p.1)) :=
  Prod.ext (length_numberedFrom 1 _) (flatMap_numberedFrom defectsOf 1 _)

/-- A log falls into lines at its line feeds. Those that are not blank are counted and validated, each
trimmed and under its number among all lines; what stands behind a line feed is validated as it would
be alone, its defects being told further down by the lines before it. -/
theorem log_line_by_line (s : String) :
    (∃ (ended : List (List Char)) (rest : List Char), s.toList = ended.flatMap (· ++ ['\n']) ++ rest ∧
      (∀ l ∈ ended, '\n' ∉ l) ∧ '\n' ∉ rest ∧
      Text.lines s = ended.map Text.dropReturn ++ if rest = [] then [] else [rest]) ∧
    (log s).1 = ((Text.lines s).countP fun l => Text.trimChars l ≠ []) ∧
    (log s).2 = (((Text.lines s).zipIdx 1).flatMap fun p =>
      if Text.trimChars p.1 = [] then []
      else match line p.2 (Text.trimChars p.1) with
        | .ok _ => []
        | .error ds => ds) ∧
    ∀ b : String, s.toList.getLast? = some '\n' →
      log (s ++ b) = ((log s).1 + (log b).1,
        (log s).2 ++ (log b).2.map fun d => { d with line := d.line + (Text.lines s).length }) := by
  obtain ⟨ended, rest, hsplit, hended, hrest, hs⟩ := Text.splitChars_spec '\n' s.toList
  refine ⟨⟨ended, rest, hs, hended, hrest, Text.lines_of_splitChars hsplit⟩, ?_, ?_,
    fun b hfeed => log_append hfeed b⟩
  · rw [log_eq]
  · rw [log_eq]
    rfl

theorem log_line_by_line_blank :
    let a := "\r\n{} \n"
    let b := "\n[]"
    a.toList.getLast? = some '\n' ∧ (Text.lines a).length = 2 ∧
      log b = (1, [⟨2, "<root>", "expected JSON object"⟩]) ∧
      log (a ++ b) = (2, (log a).2 ++ [⟨4, "<root>", "expected JSON object"⟩]) := by
  intro a b
  have hfeed : a.toList.getLast? = some '\n' := by decide
  have hb : log b = (1, [⟨2, "<root>", "expected JSON object"⟩]) := by decide +kernel
  refine ⟨hfeed, by decide +kernel, hb, ?_⟩
  rw [(log_line_by_line a).2.2.2 b hfeed, hb]
  decide +kernel

end CallBridge.Log.Validation
