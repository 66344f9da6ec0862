import CallBridge.Bench.Arrangement
import CallBridge.Bench.CallShape
import CallBridge.Proofs.Text.Items
import CallBridge.Proofs.Text.Numerals

/-!
# List arguments

A list argument is read word by word (`readWords`): it is accepted if it lists a word and every
word stands for a value, and otherwise refused for its first word that does not, or for having none
(`Reads`). Lengths and call shapes are lists of this kind, and the word `all` alone is every shape;
so lists written with commas read back, with blanks and empty items wherever there is room for them
(`lists_read_back`).
-/

namespace CallBridge.Bench
open Text

section
variable {α β ε : Type} {f : α → Except ε β} {xs : List α} {ys : List β}

theorem mapM_eq_ok_iff :
    xs.mapM f = .ok ys ↔ List.Forall₂ (fun x y => f x = .ok y) xs ys := by
  induction xs generalizing ys with
  | nil => cases ys <;> simp [pure, Except.pure]
  | cons x xs ih =>
    rw [List.mapM_cons, List.forall₂_cons_left_iff]
    cases hx : f x with
    | error e => simp [bind, Except.bind]
    | ok y =>
      cases hxs : xs.mapM f with
      | error e => simp [bind, Except.bind, ← ih, hxs]
      | ok zs => simp [bind, Except.bind, pure, Except.pure, ← ih, hxs, eq_comm]

/-- The first element that fails decides. -/
theorem mapM_eq_error {good rest : List α} {bad : α} {e : ε}
    (hgood : ∀ x ∈ good, ∃ y, f x = .ok y) (hbad : f bad = .error e) :
    (good ++ bad :: rest).mapM f = .error e := by
  induction good with
  | nil =>
    rw [List.nil_append, List.mapM_cons, hbad]
    rfl
  | cons x good ih =>
    obtain ⟨⟨y, hx⟩, hgood⟩ := List.forall_mem_cons.1 hgood
    rw [List.cons_append, List.mapM_cons, hx, ih hgood]
    rfl

end

theorem forall₂_congr_mem {α β : Type} {R S : α → β → Prop} {xs : List α} {ys : List β}
    (h : ∀ x ∈ xs, ∀ y, R x y ↔ S x y) : List.Forall₂ R xs ys ↔ List.Forall₂ S xs ys := by
  induction xs generalizing ys with
  | nil => simp
  | cons x xs ih =>
    obtain ⟨hx, hxs⟩ := List.forall_mem_cons.1 h
    simp only [List.forall₂_cons_left_iff, hx, ih hxs]

/-! ### Lists of words -/

/-- Read one word after the other; there has to be one. -/
def readWords {α : Type} (read : String → Except RunError α) (none : String) (words : List String) :
    Except RunError (List α) := do
  let values ← words.mapM read
  if values.isEmpty then .error (.invalidArgument none) else .ok values

/-- How a list of words is answered: `spells w a` says that the word `w` stands for `a`, `refusal w d`
that a word which stands for nothing is refused as `d`, and `none` what is said of no words. -/
structure Reads {α : Type} (spells : List Char → α → Prop) (refusal : List Char → String → Prop)
    (none : String) (words : List (List Char)) (answer : Except RunError (List α)) : Prop where
  ok_iff : ∀ values, answer = .ok values ↔ words ≠ [] ∧ List.Forall₂ spells words values
  of_nil : words = [] → answer = .error (.invalidArgument none)
  of_bad : ∀ good bad rest, words = good ++ bad :: rest → (∀ w ∈ good, ∃ a, spells w a) →
    (∀ a, ¬spells bad a) → ∃ detail, refusal bad detail ∧ answer = .error (.invalidArgument detail)

section
variable {α : Type} {read : String → Except RunError α} {spells : List Char → α → Prop}
  {refusal : List Char → String → Prop} {none : String} {words : List (List Char)}

theorem readWords_eq_ok_iff {ws : List String} {values : List α} :
    readWords read none ws = .ok values ↔
      ws ≠ [] ∧ List.Forall₂ (fun w a => read w = .ok a) ws values := by
  rw [← mapM_eq_ok_iff]
  unfold readWords
  cases hread : ws.mapM read with
  | error e => simp [bind, Except.bind]
  | ok read =>
    have hlength := (mapM_eq_ok_iff.1 hread).length_eq
    cases read with
    | nil =>
      obtain rfl := List.length_eq_zero_iff.1 hlength
      simp [bind, Except.bind]
    | cons a read =>
      have hne : ws ≠ [] := by
        rintro rfl
        cases hlength
      simp [bind, Except.bind, hne]

/-- Each word is read or refused by itself. -/
theorem reads_readWords (words : List (List Char)) (none : String)
    (hread : ∀ w ∈ words, ∀ a, read (String.ofList w) = .ok a ↔ spells w a)
    (hrefusal : ∀ w ∈ words, (∀ a, ¬spells w a) →
      ∃ detail, refusal w detail ∧ read (String.ofList w) = .error (.invalidArgument detail)) :
    Reads spells refusal none words (readWords read none (words.map String.ofList)) where
  ok_iff values := by
    rw [readWords_eq_ok_iff, List.forall₂_map_left_iff, ne_eq, List.map_eq_nil_iff,
      forall₂_congr_mem hread]
  of_nil := by
    rintro rfl
    rfl
  of_bad := by
    rintro good bad rest rfl hgood hbad
    obtain ⟨detail, hdetail, herror⟩ := hrefusal bad (by simp) hbad
    refine ⟨detail, hdetail, ?_⟩
    have hgood' : ∀ w ∈ good.map String.ofList, ∃ a, read w = .ok a := by
      intro _ hmem
      obtain ⟨w, hw, rfl⟩ := List.mem_map.1 hmem
      obtain ⟨a, ha⟩ := hgood w hw
      exact ⟨a, (hread w (List.mem_append_left _ hw) a).2 ha⟩
    rw [readWords, List.map_append, List.map_cons, mapM_eq_error hgood' herror]
    rfl

end

/-! ### Lengths -/

/-- A word that stands for a length: a decimal numeral of a number of 64 bits. -/
def SpellsLength (word : List Char) (n : Nat) : Prop :=
  ∃ vs, IsNumeral 10 word vs ∧ Nat.ofDigits 10 vs.reverse = n ∧ n < 2 ^ 64

/-- How a word is refused as a length: by its name, and why it is no number. -/
def LengthRefusal (word : List Char) (detail : String) : Prop :=
  ∃ e, readNumber 10 lengthLimit word = .error e ∧
    detail = "length " ++ DecodeError.ticked (String.ofList word) ++ s!": {e.message}"

theorem readLength_eq_ok_iff {w : List Char} {n : Nat} :
    readLength (String.ofList w) = .ok n ↔ SpellsLength w n := by
  rw [SpellsLength, ← readNumber_eq_ok_iff (by decide) (by decide : 0 < 2 ^ 64)]
  rw [readLength, String.toList_ofList]
  change _ ↔ readNumber 10 lengthLimit w = .ok n
  cases readNumber 10 lengthLimit w <;> simp

theorem readLength_refusal {w : List Char} (h : ∀ n, ¬SpellsLength w n) :
    ∃ detail, LengthRefusal w detail ∧
      readLength (String.ofList w) = .error (.invalidArgument detail) := by
  cases hread : readNumber 10 lengthLimit w with
  | ok n =>
    refine absurd (readLength_eq_ok_iff.1 ?_) (h n)
    rw [readLength, String.toList_ofList, hread]
  | error e =>
    refine ⟨_, ⟨e, hread, rfl⟩, ?_⟩
    rw [readLength, String.toList_ofList, hread]

theorem reads_readLengths {s : String} {words : List (List Char)} (h : Lists s.toList words) :
    Reads SpellsLength LengthRefusal "no lengths given" words (readLengths s) := by
  have hreads := reads_readWords words "no lengths given"
    (fun _ _ _ => readLength_eq_ok_iff) fun _ _ => readLength_refusal
  rwa [← items_eq_iff.2 h] at hreads

/-! ### Call shapes -/

def SpellsShape (word : List Char) (shape : CallShape) : Prop := word = shape.name.toList

def ShapeRefusal (word : List Char) (detail : String) : Prop :=
  detail = "unknown call shape " ++ DecodeError.ticked (String.ofList word)

theorem ofName?_eq_some_iff {name : String} {shape : CallShape} :
    CallShape.ofName? name = some shape ↔ name = shape.name := by
  constructor
  · intro h
    have hname := List.find?_some h
    simpa [eq_comm] using hname
  · rintro rfl
    exact CallShape.ofName?_name shape

theorem readShape_eq_ok_iff {w : List Char} (hw : trimChars w = w) {shape : CallShape} :
    CallShape.read (String.ofList w) = .ok shape ↔ SpellsShape w shape := by
  have hname : SpellsShape w shape ↔ CallShape.ofName? (String.ofList w) = some shape := by
    rw [ofName?_eq_some_iff, SpellsShape, ← String.toList_inj, String.toList_ofList]
  rw [hname, CallShape.read, Text.trim, String.toList_ofList, hw]
  cases CallShape.ofName? (String.ofList w) <;> simp

theorem readShape_refusal {w : List Char} (hw : trimChars w = w)
    (h : ∀ shape, ¬SpellsShape w shape) : ∃ detail, ShapeRefusal w detail ∧
      CallShape.read (String.ofList w) = .error (.invalidArgument detail) := by
  refine ⟨_, rfl, ?_⟩
  cases hname : CallShape.ofName? (String.ofList w) with
  | some shape =>
    refine absurd ((readShape_eq_ok_iff hw).1 ?_) (h shape)
    rw [CallShape.read, Text.trim, String.toList_ofList, hw, hname]
  | none => rw [CallShape.read, Text.trim, String.toList_ofList, hw, hname]

theorem reads_readShapes {s : String} {words : List (List Char)} (h : Lists s.toList words)
    (hall : ¬Trimmed s.toList "all".toList) :
    Reads SpellsShape ShapeRefusal "no call shapes given" words (CallShape.readList s) := by
  have hreads := reads_readWords words "no call shapes given"
    (fun w hw _ => readShape_eq_ok_iff (h.trimChars_eq w hw))
    fun w hw => readShape_refusal (h.trimChars_eq w hw)
  rw [← items_eq_iff.2 h] at hreads
  have htrim : Text.trim s ≠ "all" := by
    intro heq
    rw [Text.trim, ← String.toList_inj, String.toList_ofList] at heq
    exact hall (trimChars_eq_iff.1 heq)
  rw [CallShape.readList, if_neg htrim]
  exact hreads

theorem readShapes_all {s : String} (h : Trimmed s.toList "all".toList) :
    CallShape.readList s = .ok CallShape.all := by
  have htrim : Text.trim s = "all" := by
    rw [Text.trim, trimChars_eq_iff.2 h, String.ofList_toList]
  rw [CallShape.readList, if_pos htrim]
  rfl

/-- A text that lists the names of call shapes is not the word for all of them. -/
theorem not_trimmed_all {s : String} {shapes : List CallShape}
    (h : Lists s.toList (shapes.map (·.name.toList))) : ¬Trimmed s.toList "all".toList := by
  intro htrim
  have hcomma : ',' ∉ s.toList := by
    obtain ⟨before, after, hs, hbefore, hafter, -⟩ := htrim
    rw [hs]
    simp only [List.mem_append, not_or]
    refine ⟨fun h => ?_, by decide, fun h => ?_⟩
    · exact absurd (hbefore _ h) (by decide)
    · exact absurd (hafter _ h) (by decide)
  have hall : Lists s.toList ["all".toList] :=
    ⟨[s.toList], by simp, by simp, by simpa using hcomma, .word htrim (by decide) .nil⟩
  have hitems := (items_eq_iff.2 h).symm.trans (items_eq_iff.2 hall)
  cases shapes with
  | nil => cases hitems
  | cons shape shapes =>
    have hname := (List.cons.inj hitems).1
    cases shape <;> revert hname <;> decide

/-! ### Written lists -/

theorem spellsLength_toString {n : Nat} (h : n < 2 ^ 64) : SpellsLength (toString n).toList n := by
  obtain ⟨vs, hvs, hvalue⟩ := isNumeral_toDigits (by decide : 1 < 10) n
  rw [Nat.toString_eq_ofList_toDigits, String.toList_ofList]
  exact ⟨vs, hvs, hvalue, h⟩

theorem lists_lengths {ns : List Nat} (hne : ns ≠ []) :
    Lists (",".intercalate (ns.map toString)).toList (ns.map fun n => (toString n).toList) := by
  rw [String.toList_intercalate, List.map_map]
  refine lists_intercalate (by simpa using hne) fun w hw => ?_
  obtain ⟨n, -, rfl⟩ := List.mem_map.1 hw
  rw [Function.comp_apply, Nat.toString_eq_ofList_toDigits, String.toList_ofList]
  obtain ⟨vs, hvs, -⟩ := isNumeral_toDigits (by decide : 1 < 10) n
  refine ⟨Nat.toDigits_ne_nil, fun c hc => ⟨?_, hvs.not_isBlank (by decide) c hc⟩⟩
  rintro rfl
  exact absurd (Nat.isDigit_of_mem_toDigits (by decide) (by decide) hc) (by decide)

theorem plain_name (shape : CallShape) :
    ∀ c ∈ shape.name.toList, c ≠ ',' ∧ isBlank c = false := by
  have hall : shape.name.toList.all fun c => c ≠ ',' && !isBlank c := by
    cases shape <;> decide
  simpa using hall

theorem lists_shapes {shapes : List CallShape} (hne : shapes ≠ []) :
    Lists (",".intercalate (shapes.map CallShape.name)).toList (shapes.map (·.name.toList)) := by
  rw [String.toList_intercalate, List.map_map]
  refine lists_intercalate (by simpa using hne) fun w hw => ?_
  obtain ⟨shape, -, rfl⟩ := List.mem_map.1 hw
  refine ⟨?_, plain_name shape⟩
  cases shape <;> decide

/-- Lists of lengths and of call shapes are read back, with duplicates and in their order, from any
text that lists them. A text is accepted only if it lists a word and only as what its words stand for,
or if it is the word for all shapes; else it is refused for its first word that stands for nothing, or
for having none. -/
theorem lists_read_back :
    (∀ ns : List Nat, ns ≠ [] → (∀ n ∈ ns, n < 2 ^ 64) →
      readLengths (",".intercalate (ns.map toString)) = .ok ns ∧
      ∀ s : String, Lists s.toList (ns.map fun n => (toString n).toList) → readLengths s = .ok ns) ∧
    (∀ shapes : List CallShape, shapes ≠ [] →
      CallShape.readList (",".intercalate (shapes.map CallShape.name)) = .ok shapes ∧
      ∀ s : String, Lists s.toList (shapes.map (·.name.toList)) →
        CallShape.readList s = .ok shapes) ∧
    (∀ s : String, ∃ words, Lists s.toList words) ∧
    (∀ (s : String) (words : List (List Char)), Lists s.toList words →
      Reads SpellsLength LengthRefusal "no lengths given" words (readLengths s) ∧
      (¬Trimmed s.toList "all".toList →
        Reads SpellsShape ShapeRefusal "no call shapes given" words (CallShape.readList s))) ∧
    (∀ s : String, Trimmed s.toList "all".toList → CallShape.readList s = .ok CallShape.all) ∧
    CallShape.all.length = 9 ∧ ∀ shape, shape ∈ CallShape.all := by
  have hlengths : ∀ ns : List Nat, ns ≠ [] → (∀ n ∈ ns, n < 2 ^ 64) → ∀ s : String,
      Lists s.toList (ns.map fun n => (toString n).toList) → readLengths s = .ok ns := by
    intro ns hne hns s hs
    refine ((reads_readLengths hs).ok_iff ns).2 ⟨by simpa using hne, ?_⟩
    rw [List.forall₂_map_left_iff, List.forall₂_same]
    exact fun n hn => spellsLength_toString (hns n hn)
  have hshapes : ∀ shapes : List CallShape, shapes ≠ [] → ∀ s : String,
      Lists s.toList (shapes.map (·.name.toList)) → CallShape.readList s = .ok shapes := by
    intro shapes hne s hs
    refine ((reads_readShapes hs (not_trimmed_all hs)).ok_iff shapes).2 ⟨by simpa using hne, ?_⟩
    rw [List.forall₂_map_left_iff, List.forall₂_same]
    exact fun shape _ => rfl
  refine ⟨fun ns hne hns => ⟨hlengths ns hne hns _ (lists_lengths hne), hlengths ns hne hns⟩,
    fun shapes hne => ⟨hshapes shapes hne _ (lists_shapes hne), hshapes shapes hne⟩,
    fun s => ⟨_, lists_items s⟩, fun s words hs => ⟨reads_readLengths hs, reads_readShapes hs⟩,
    fun s => readShapes_all, rfl, fun shape => ?_⟩
  cases shape <;> decide

theorem lists_read_back_dressed :
    Lists "\t0 ,, 18446744073709551615,7,\u00a07,".toList
      ([0, 18446744073709551615, 7, 7].map fun n => (toString n).toList) ∧
    readLengths "\t0 ,, 18446744073709551615,7,\u00a07," = .ok [0, 18446744073709551615, 7, 7] ∧
    Lists "noop, , all,noop".toList ["noop".toList, "all".toList, "noop".toList] ∧
    CallShape.readList "noop, , all,noop" =
      .error (.invalidArgument ("unknown call shape " ++ DecodeError.ticked "all")) := by
  have hlengths : Lists "\t0 ,, 18446744073709551615,7,\u00a07,".toList
      ([0, 18446744073709551615, 7, 7].map fun n => (toString n).toList) :=
    items_eq_iff.1 (by decide +kernel)
  have hshapes : Lists "noop, , all,noop".toList ["noop".toList, "all".toList, "noop".toList] :=
    items_eq_iff.1 (by decide +kernel)
  have hnotAll : ¬Trimmed "noop, , all,noop".toList "all".toList := by
    rw [← trimChars_eq_iff]
    decide
  have hnoop : ∀ w ∈ ["noop".toList], ∃ shape, SpellsShape w shape := by
    intro w hw
    exact ⟨.noop, List.mem_singleton.1 hw⟩
  have hall : ∀ shape, ¬SpellsShape "all".toList shape := by
    intro shape
    unfold SpellsShape
    cases shape <;> decide
  obtain ⟨detail, rfl, hrefused⟩ := ((lists_read_back.2.2.2.1 _ _ hshapes).2 hnotAll).of_bad
    ["noop".toList] "all".toList ["noop".toList] rfl hnoop hall
  exact ⟨hlengths, (lists_read_back.1 _ (by decide) (by decide)).2 _ hlengths, hshapes, hrefused⟩

end CallBridge.Bench
