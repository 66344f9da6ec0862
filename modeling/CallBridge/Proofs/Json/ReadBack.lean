import CallBridge.Proofs.Json.Grammar
import CallBridge.Proofs.Json.Members

/-!
# What a printer writes reads back

`Legible d j`: the value `j`, nested at most `d` deep, has only numbers that read back, integers by
their bounds, a double by its own text. Then its text, without blanks or indented, reads back as
`canonical d j`, which is `j` with the members of each object sorted by key (`read_compact`,
`read_pretty`).
-/

namespace CallBridge

namespace Decimal

/-- What a double is written with. -/
def isNumeral (c : Char) : Bool :=
  c.isDigit || c = '.' || c = 'e' || c = '+' || c = '-'

theorem isNumeral_of_mem_digits {n : Nat} {c : Char} (h : c ∈ digits n) : isNumeral c := by
  simp [isNumeral, Json.isDigit_of_mem_digits h]

section
variable {ds : List Char} {first : Int} {c : Char}

theorem isNumeral_of_mem_inPlace (hds : ∀ c ∈ ds, isNumeral c) (h : c ∈ inPlace ds first) :
    isNumeral c := by
  have hzero : isNumeral '0' := by decide
  have hzeros : ∀ {n : Nat}, ∀ c ∈ List.replicate n '0', isNumeral c := by
    intro n c hc
    rwa [(List.mem_replicate.1 hc).2]
  have happend : ∀ {s t : List Char}, (∀ c ∈ s, isNumeral c) → (∀ c ∈ t, isNumeral c) →
      ∀ c ∈ s ++ t, isNumeral c :=
    fun hs ht c hc => (List.mem_append.1 hc).elim (hs c) (ht c)
  unfold inPlace at h
  split at h
  · rcases List.mem_cons.1 h with rfl | h
    · exact hzero
    rcases List.mem_cons.1 h with rfl | h
    · decide
    · exact happend hzeros hds c h
  · have hpadded : ∀ n, ∀ c ∈ ds ++ List.replicate n '0', isNumeral c := fun n =>
      happend hds hzeros
    rcases List.mem_append.1 h with h | h
    · exact hpadded _ c (List.mem_of_mem_take h)
    rcases List.mem_cons.1 h with rfl | h
    · decide
    split at h
    · rw [List.mem_singleton.1 h]
      exact hzero
    · exact hpadded _ c (List.mem_of_mem_drop h)

theorem isNumeral_of_mem_withExponent (hds : ∀ c ∈ ds, isNumeral c)
    (h : c ∈ withExponent ds first) : isNumeral c := by
  unfold withExponent at h
  rcases List.mem_append.1 h with h | h
  · split at h
    · cases h
    · exact hds c h
    · next d rest =>
      rcases List.mem_cons.1 h with rfl | h
      · exact hds _ (List.mem_cons_self ..)
      rcases List.mem_cons.1 h with rfl | h
      · decide
      · exact hds c (List.mem_cons_of_mem _ h)
  rcases List.mem_cons.1 h with rfl | h
  · decide
  rcases List.mem_cons.1 h with rfl | h
  · split
    · decide
    · decide
  · exact isNumeral_of_mem_digits h

theorem isNumeral_of_mem_render {layout : Layout} {negative : Bool} {units : Nat}
    (h : c ∈ layout.render negative units) : isNumeral c := by
  have hbody : ∀ {s : List Char}, (∀ c ∈ s, isNumeral c) →
      c ∈ (if negative then '-' :: s else s) → isNumeral c := by
    intro s hs hc
    split at hc
    · rcases List.mem_cons.1 hc with rfl | hc
      · decide
      · exact hs c hc
    · exact hs c hc
  refine hbody (fun c hc => ?_) h
  split at hc
  · simp only [List.mem_cons, List.not_mem_nil, or_false] at hc
    rcases hc with rfl | rfl | rfl
    · decide
    · decide
    · decide
  · dsimp only at hc
    split at hc
    · exact isNumeral_of_mem_inPlace (fun _ => isNumeral_of_mem_digits) hc
    · exact isNumeral_of_mem_withExponent (fun _ => isNumeral_of_mem_digits) hc

end
end Decimal

namespace Json

/-! ### Doubles -/

theorem plain_of_isNumeral {c : Char} (h : Decimal.isNumeral c) :
    isBlank c = false ∧ c ≠ '[' ∧ c ≠ '{' := by
  refine ⟨?_, ?_, ?_⟩
  · cases hc : isBlank c with
    | false => rfl
    | true =>
      simp only [isBlank, Bool.or_eq_true, decide_eq_true_eq] at hc
      rcases hc with ((rfl | rfl) | rfl) | rfl <;> exact absurd h (by decide)
  all_goals
    rintro rfl
    exact absurd h (by decide)

theorem plain_of_mem_floatChars {x : Binary64} {c : Char} (h : c ∈ floatChars x) :
    isBlank c = false ∧ c ≠ '[' ∧ c ≠ '{' := by
  unfold floatChars at h
  split at h
  · exact plain_of_isNumeral (Decimal.isNumeral_of_mem_render h)
  · simp only [List.mem_cons, List.not_mem_nil, or_false] at h
    rcases h with rfl | rfl | rfl | rfl <;> decide

theorem skipBlanks_of_plain {s : List Char} (h : ∀ c ∈ s, isBlank c = false) : skipBlanks s = s := by
  cases s with
  | nil => rfl
  | cons c s => exact List.dropWhile_cons_of_neg (by simp [h c (List.mem_cons_self ..)])

/-- The text of a double is read as the double. -/
def ReadsBack (x : Binary64) : Prop := read (float x).compact = .ok (.float x)

/-- Whether a value was read and is a double. -/
def isReadAs (x : Binary64) : Except ReadError Json → Bool
  | .ok (.float y) => y = x
  | _ => false

theorem isReadAs_iff {x : Binary64} {r : Except ReadError Json} :
    isReadAs x r ↔ r = .ok (.float x) := by
  cases r with
  | error e => simp [isReadAs]
  | ok j => cases j <;> simp [isReadAs]

instance (x : Binary64) : Decidable (ReadsBack x) := decidable_of_iff _ isReadAs_iff

theorem toList_compact (j : Json) : j.compact.toList = compactChars j :=
  String.toList_ofList

theorem value_floatChars (x : Binary64) (depth : Nat) :
    value depth (floatChars x) = scalar (floatChars x) := by
  have hskip : skipBlanks (floatChars x) = floatChars x :=
    skipBlanks_of_plain fun c hc => (plain_of_mem_floatChars hc).1
  cases hs : floatChars x with
  | nil => cases depth <;> rfl
  | cons c s =>
    have hc := plain_of_mem_floatChars (x := x) (hs ▸ List.mem_cons_self ..)
    exact value_of_scalar (hs ▸ hskip) hc.2.1 hc.2.2 depth

theorem scalar_of_readsBack {x : Binary64} (h : ReadsBack x) :
    scalar (floatChars x) = .ok (.float x, []) := by
  have htext : (float x).compact.toList = floatChars x := by
    simp [toList_compact, compactChars, scalarChars]
  rw [ReadsBack, read, htext, ofChars, document, value_floatChars] at h
  cases hread : scalar (floatChars x) with
  | error e =>
    rw [hread] at h
    cases h
  | ok v =>
    obtain ⟨j, r⟩ := v
    rw [hread, ok_bind] at h
    dsimp only at h
    split at h
    · next hr =>
      obtain rfl : j = .float x := by injection h
      -- What is left over are blanks, and a double is written without any.
      obtain ⟨t, ht⟩ := (scalar_append_of_float hread).1
      have hplain : ∀ c ∈ r, isBlank c = false := fun c hc =>
        (plain_of_mem_floatChars (x := x) (ht ▸ List.mem_append_right _ hc)).1
      rw [skipBlanks_of_plain hplain] at hr
      rw [hr]
    · cases h

/-- A double that reads back from a text of its own does so from within a document. -/
theorem spellsScalar_float {x : Binary64} (h : ReadsBack x) :
    SpellsScalar (floatChars x) (.float x) :=
  (scalar_append_of_float (scalar_of_readsBack h)).2

/-! ### The printer without blanks -/

/-- A value nested at most so deep whose numbers read back. -/
def Legible : Nat → Json → Prop
  | _, .int n => isIntegral n
  | _, .float x => ReadsBack x
  | depth + 1, .array js => ∀ j ∈ js, Legible depth j
  | depth + 1, .object ms => ∀ m ∈ ms, Legible depth m.2
  | 0, .array _ | 0, .object _ => False
  | _, _ => True

/-- A value as it is read back: the members of each object sorted, down to a depth. -/
def canonical : Nat → Json → Json
  | depth + 1, .array js => .array (js.map (canonical depth))
  | depth + 1, .object ms =>
    .object (Members.sort (ms.map fun m => (m.1, canonical depth m.2)))
  | _, j => j

theorem legible_str (depth : Nat) (s : String) : Legible depth (.str s) := by
  cases depth <;> trivial

theorem canonical_str (depth : Nat) (s : String) : canonical depth (.str s) = .str s := by
  cases depth <;> rfl

theorem canonical_strings (depth : Nat) (paths : List String) :
    canonical depth (.array (paths.map .str)) = .array (paths.map .str) := by
  cases depth with
  | zero => rfl
  | succ depth => simp [canonical, canonical_str]

theorem canonical_flat {ms : Members} (hsorted : ms.Sorted) (hstrings : ∀ m ∈ ms, ∃ s, m.2 = .str s)
    (depth : Nat) : canonical depth (.object ms) = .object ms := by
  cases depth with
  | zero => rfl
  | succ depth =>
    have hmap : ms.map (fun m => (m.1, canonical depth m.2)) = ms := by
      refine (List.map_congr_left fun m hm => ?_).trans (List.map_id ms)
      obtain ⟨s, hs⟩ := hstrings m hm
      rw [hs, canonical_str, ← hs]
      rfl
    rw [canonical, hmap, Members.sort_of_sorted hsorted]

section
variable {P : List Char → Json → Prop} {f : Json → Json}

theorem spellsItems_compact {j : Json} {js : List Json}
    (h : ∀ i ∈ j :: js, P (compactChars i) (f i)) :
    SpellsItems P (compactItems (j :: js)) ((j :: js).map f) := by
  induction js generalizing j with
  | nil =>
    have hlast := SpellsItems.last blank_nil (h j (List.mem_cons_self ..)) blank_nil
    simpa [compactItems] using hlast
  | cons k js ih =>
    have hmore := SpellsItems.more blank_nil (h j (List.mem_cons_self ..)) blank_nil
      (ih fun i hi => h i (List.mem_cons_of_mem _ hi))
    simpa [compactItems] using hmore

theorem spellsMembers_compact {m : String × Json} {ms : Members}
    (h : ∀ i ∈ m :: ms, P (compactChars i.2) (f i.2)) :
    SpellsMembers P (compactMembers (m :: ms)) ((m :: ms).map fun i => (i.1, f i.2)) := by
  induction ms generalizing m with
  | nil =>
    have hlast := SpellsMembers.last m.1 blank_nil blank_nil
      (h m (List.mem_cons_self ..)) blank_nil
    simpa [compactMembers] using hlast
  | cons k ms ih =>
    have hmore := SpellsMembers.more m.1 blank_nil blank_nil
      (h m (List.mem_cons_self ..)) blank_nil (ih fun i hi => h i (List.mem_cons_of_mem _ hi))
    simpa [compactMembers] using hmore

end

theorem spellsScalar_compactChars {j : Json} (h : Legible 0 j) :
    SpellsScalar (compactChars j) j := by
  cases j with
  | array | object => exact h.elim
  | null => exact spellsScalar_null
  | bool b => exact spellsScalar_bool b
  | int n => exact spellsScalar_int h
  | float x => exact spellsScalar_float h
  | str s => exact spellsScalar_str s

/-- A legible value is written by the grammar. -/
theorem spells_compactChars {depth : Nat} {j : Json} (h : Legible depth j) :
    Spells depth (compactChars j) (canonical depth j) := by
  induction depth generalizing j with
  | zero => exact spellsScalar_compactChars h
  | succ depth ih =>
    cases j with
    | array js =>
      cases js with
      | nil => exact .inr (.emptyArray blank_nil)
      | cons j js => exact .inr (.array (spellsItems_compact fun i hi => ih (h i hi)))
    | object ms =>
      cases ms with
      | nil => exact .inr (.emptyObject blank_nil)
      | cons m ms => exact .inr (.object (spellsMembers_compact fun i hi => ih (h i hi)))
    | _ => exact .inl (spellsScalar_compactChars h)

/-- The text of a legible value without blanks is read back. -/
theorem read_compact {j : Json} (h : Legible maxDepth j) :
    read j.compact = .ok (canonical maxDepth j) := by
  have hread := ofChars_of_spells blank_nil (spells_compactChars h) blank_nil
  rw [read, toList_compact]
  simpa using hread

/-! ### The printer that indents -/

theorem blank_newline (level : Nat) : Blank (newline level) := by
  refine List.forall_mem_cons.2 ⟨by decide, fun c hc => ?_⟩
  rw [(List.mem_replicate.1 hc).2]
  decide

theorem blank_space : Blank [' '] := List.forall_mem_singleton.2 (by decide)

section
variable {P : List Char → Json → Prop} {f : Json → Json} {level : Nat} {gap : List Char}

/-- Items on lines of their own, and a gap before the closing bracket. -/
theorem spellsItems_pretty (hgap : Blank gap) {j : Json} {js : List Json}
    (h : ∀ i ∈ j :: js, P (prettyChars level i) (f i)) :
    SpellsItems P (prettyItems level (j :: js) ++ gap) ((j :: js).map f) := by
  induction js generalizing j with
  | nil =>
    have hlast := SpellsItems.last (blank_newline level) (h j (List.mem_cons_self ..)) hgap
    simpa [prettyItems] using hlast
  | cons k js ih =>
    have hmore := SpellsItems.more (blank_newline level) (h j (List.mem_cons_self ..)) blank_nil
      (ih fun i hi => h i (List.mem_cons_of_mem _ hi))
    simpa [prettyItems] using hmore

theorem spellsMembers_pretty (hgap : Blank gap) {m : String × Json} {ms : Members}
    (h : ∀ i ∈ m :: ms, P (prettyChars level i.2) (f i.2)) :
    SpellsMembers P (prettyMembers level (m :: ms) ++ gap)
      ((m :: ms).map fun i => (i.1, f i.2)) := by
  induction ms generalizing m with
  | nil =>
    have hlast := SpellsMembers.last m.1 (blank_newline level) blank_space
      (h m (List.mem_cons_self ..)) hgap
    simpa [prettyMembers] using hlast
  | cons k ms ih =>
    have hmore := SpellsMembers.more m.1 (blank_newline level) blank_space
      (h m (List.mem_cons_self ..)) blank_nil (ih fun i hi => h i (List.mem_cons_of_mem _ hi))
    simpa [prettyMembers] using hmore

end

theorem spellsScalar_prettyChars {j : Json} {level : Nat} (h : Legible 0 j) :
    SpellsScalar (prettyChars level j) j := by
  cases j with
  | array | object => exact h.elim
  | _ => exact spellsScalar_compactChars h

/-- A legible value is written by the grammar at every level. -/
theorem spells_prettyChars {depth : Nat} {j : Json} (h : Legible depth j) (level : Nat) :
    Spells depth (prettyChars level j) (canonical depth j) := by
  induction depth generalizing j level with
  | zero => exact spellsScalar_prettyChars h
  | succ depth ih =>
    cases j with
    | array js =>
      cases js with
      | nil => exact .inr (.emptyArray blank_nil)
      | cons j js =>
        exact .inr (.array (spellsItems_pretty (blank_newline level) fun i hi => ih (h i hi) _))
    | object ms =>
      cases ms with
      | nil => exact .inr (.emptyObject blank_nil)
      | cons m ms =>
        exact .inr (.object (spellsMembers_pretty (blank_newline level) fun i hi => ih (h i hi) _))
    | _ => exact .inl (spellsScalar_prettyChars h)

/-- The text of a legible value over several lines is read back. -/
theorem read_pretty {j : Json} (h : Legible maxDepth j) :
    read j.pretty = .ok (canonical maxDepth j) := by
  have hread := ofChars_of_spells blank_nil (spells_prettyChars h 0) blank_nil
  rw [read, pretty, String.toList_ofList]
  simpa using hread

end Json
end CallBridge
