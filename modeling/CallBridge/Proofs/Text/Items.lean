import CallBridge.Proofs.Text.Lines
import Mathlib.Data.List.TakeWhile

/-!
# Words with blanks around, and items between commas

`Trimmed s w`: the text `s` is the word `w` with blanks around it; so `w` is what trimming leaves
(`trimChars_eq_iff`). `Lists s ws`: the text `s` falls at its commas into parts that are blank or hold
one of the words `ws` each, in their order; so they are its items (`items_eq_iff`).
-/

namespace CallBridge.Text

def Blanks (s : List Char) : Prop := ∀ c ∈ s, isBlank c = true

/-- A word with blanks around it and none at either end of its own. -/
def Trimmed (s word : List Char) : Prop :=
  ∃ before after, s = before ++ (word ++ after) ∧ Blanks before ∧ Blanks after ∧
    (∀ c, word.head? = some c → isBlank c = false) ∧
    ∀ c, word.getLast? = some c → isBlank c = false

section
variable {s word before after : List Char}

theorem isBlank_head_dropWhile {c : Char} (h : (s.dropWhile isBlank).head? = some c) :
    isBlank c = false := by
  have hnot := List.head?_dropWhile_not isBlank s
  rw [h] at hnot
  simpa using hnot

theorem blanks_takeWhile (s : List Char) : Blanks (s.takeWhile isBlank) :=
  fun _ hc => List.mem_takeWhile_imp hc

theorem Blanks.reverse (h : Blanks s) : Blanks s.reverse :=
  fun c hc => h c (List.mem_reverse.1 hc)

theorem dropWhile_blanks (h : Blanks before) (hs : ∀ c, s.head? = some c → isBlank c = false) :
    (before ++ s).dropWhile isBlank = s := by
  rw [List.dropWhile_append_of_pos h]
  cases s with
  | nil => rfl
  | cons c s => exact List.dropWhile_cons_of_neg (by simp [hs c rfl])

theorem trimChars_blanks (h : Blanks s) : trimChars s = [] := by
  rw [trimChars, List.dropWhile_eq_nil_iff.2 h]
  rfl

/-- What trimming leaves is the word with blanks around it. -/
theorem trimChars_eq_iff : trimChars s = word ↔ Trimmed s word := by
  constructor
  · rintro rfl
    have hfront := List.takeWhile_append_dropWhile (p := isBlank) (l := s)
    have hback := List.takeWhile_append_dropWhile (p := isBlank) (l := (s.dropWhile isBlank).reverse)
    have hsplit : s.dropWhile isBlank = trimChars s ++
        ((s.dropWhile isBlank).reverse.takeWhile isBlank).reverse := by
      rw [trimChars, ← List.reverse_append, hback, List.reverse_reverse]
    refine ⟨s.takeWhile isBlank, ((s.dropWhile isBlank).reverse.takeWhile isBlank).reverse, ?_,
      blanks_takeWhile s, (blanks_takeWhile _).reverse, ?_, ?_⟩
    · rw [← hsplit, hfront]
    · intro c hc
      have hhead : (s.dropWhile isBlank).head? = some c := by
        rw [hsplit, List.head?_append, hc]
        rfl
      exact isBlank_head_dropWhile hhead
    · intro c hc
      rw [trimChars, List.getLast?_reverse] at hc
      exact isBlank_head_dropWhile hc
  · rintro ⟨before, after, rfl, hbefore, hafter, hhead, hlast⟩
    cases word with
    | nil =>
      refine trimChars_blanks fun c hc => ?_
      rcases List.mem_append.1 hc with hc | hc
      · exact hbefore c hc
      · exact hafter c hc
    | cons d word =>
      have hback : ∀ c, (d :: word).reverse.head? = some c → isBlank c = false := by
        intro c hc
        rw [List.head?_reverse] at hc
        exact hlast c hc
      rw [trimChars, dropWhile_blanks hbefore (by simpa using hhead), List.reverse_append,
        dropWhile_blanks hafter.reverse hback, List.reverse_reverse]

/-- A word without blanks, with blanks around it. -/
theorem trimmed_of_plain (hbefore : Blanks before) (hafter : Blanks after)
    (h : ∀ c ∈ word, isBlank c = false) : Trimmed (before ++ (word ++ after)) word :=
  ⟨before, after, rfl, hbefore, hafter, fun c hc => h c (List.mem_of_mem_head? hc),
    fun c hc => h c (List.mem_of_mem_getLast? hc)⟩

end

/-! ### Items -/

/-- Parts and the words in them: a part is blank, or a word with blanks around it. -/
inductive Filled : List (List Char) → List (List Char) → Prop
  | nil : Filled [] []
  | blank {part : List Char} {parts words : List (List Char)} (hpart : Blanks part)
      (h : Filled parts words) : Filled (part :: parts) words
  | word {part word : List Char} {parts words : List (List Char)} (hpart : Trimmed part word)
      (hword : word ≠ []) (h : Filled parts words) : Filled (part :: parts) (word :: words)

/-- A text that lists words: its parts between commas are filled with them. -/
def Lists (s : List Char) (words : List (List Char)) : Prop :=
  ∃ parts, parts ≠ [] ∧ s = [','].intercalate parts ∧ (∀ part ∈ parts, ',' ∉ part) ∧
    Filled parts words

section
variable {c : Char} {s : List Char} {parts words : List (List Char)}

theorem Filled.trimChars_eq (h : Filled parts words) : ∀ w ∈ words, trimChars w = w := by
  induction h with
  | nil => simp
  | blank _ _ ih => exact ih
  | word hpart _ _ ih =>
    obtain ⟨-, -, -, -, -, hhead, hlast⟩ := hpart
    refine List.forall_mem_cons.2 ⟨trimChars_eq_iff.2 ⟨[], [], ?_⟩, ih⟩
    exact ⟨by simp, by simp [Blanks], by simp [Blanks], hhead, hlast⟩

theorem Lists.trimChars_eq (h : Lists s words) : ∀ w ∈ words, trimChars w = w := by
  obtain ⟨parts, -, -, -, hfilled⟩ := h
  exact hfilled.trimChars_eq

theorem intercalate_concat (c : Char) (parts : List (List Char)) (last : List Char) :
    [c].intercalate (parts ++ [last]) = parts.flatMap (· ++ [c]) ++ last := by
  induction parts with
  | nil => simp
  | cons part parts ih =>
    rw [List.cons_append, List.intercalate_cons_of_ne_nil (by simp), ih, List.flatMap_cons]
    simp only [List.append_assoc]

/-- The parts of a text are those without a separator that it is put together from. -/
theorem splitChars_eq_iff : splitChars c s = parts ↔
    parts ≠ [] ∧ s = [c].intercalate parts ∧ ∀ part ∈ parts, c ∉ part := by
  constructor
  · rintro rfl
    obtain ⟨ended, rest, hsplit, hended, hrest, hs⟩ := splitChars_spec c s
    rw [hsplit, intercalate_concat]
    refine ⟨by simp, hs, fun part hpart => ?_⟩
    rcases List.mem_append.1 hpart with hpart | hpart
    · exact hended part hpart
    · rwa [List.mem_singleton.1 hpart]
  · rintro ⟨hne, rfl, hparts⟩
    obtain ⟨ended, rest, rfl⟩ := (List.eq_nil_or_concat' parts).resolve_left hne
    rw [intercalate_concat]
    exact splitChars_flatMap (fun l hl => hparts l (List.mem_append_left _ hl))
      (hparts rest (List.mem_append_right _ (List.mem_singleton_self rest)))

theorem filled_iff :
    Filled parts words ↔ (parts.map trimChars).filter (!·.isEmpty) = words := by
  constructor
  · intro h
    induction h with
    | nil => rfl
    | blank hpart _ ih => simp [trimChars_blanks hpart, ih]
    | word hpart hword _ ih => simp [trimChars_eq_iff.2 hpart, hword, ih]
  · rintro rfl
    induction parts with
    | nil => exact .nil
    | cons part parts ih =>
      have htrim := trimChars_eq_iff.1 (Eq.refl (trimChars part))
      cases hword : trimChars part with
      | nil =>
        obtain ⟨before, after, rfl, hbefore, hafter, -⟩ := hword ▸ htrim
        have hblank : Blanks (before ++ ([] ++ after)) := fun c hc =>
          (List.mem_append.1 hc).elim (hbefore c) (hafter c)
        rw [List.map_cons, hword]
        exact .blank hblank ih
      | cons d word =>
        rw [List.map_cons, hword]
        exact .word (hword ▸ htrim) (List.cons_ne_nil d word) ih

/-- The items of a text are the words that it lists. -/
theorem items_eq_iff {s : String} :
    items s = words.map String.ofList ↔ Lists s.toList words := by
  have hinj : Function.Injective String.ofList := fun _ _ h => String.ofList_injective h
  rw [items, (List.map_injective_iff.2 hinj).eq_iff, ← filled_iff]
  constructor
  · intro h
    obtain ⟨hne, hs, hparts⟩ := splitChars_eq_iff.1 (Eq.refl (splitChars ',' s.toList))
    exact ⟨_, hne, hs, hparts, h⟩
  · rintro ⟨parts, hne, hs, hparts, h⟩
    rwa [splitChars_eq_iff.2 ⟨hne, hs, hparts⟩]

/-- Words without blanks and commas are listed with nothing but commas between them. -/
theorem lists_intercalate (hne : words ≠ [])
    (h : ∀ w ∈ words, w ≠ [] ∧ ∀ c ∈ w, c ≠ ',' ∧ isBlank c = false) :
    Lists ([','].intercalate words) words := by
  refine ⟨words, hne, rfl, fun w hw hcomma => ((h w hw).2 _ hcomma).1 rfl, ?_⟩
  clear hne
  induction words with
  | nil => exact .nil
  | cons w words ih =>
    obtain ⟨⟨hw, hplain⟩, hwords⟩ := List.forall_mem_cons.1 h
    have htrim : Trimmed ([] ++ (w ++ [])) w :=
      trimmed_of_plain (by simp [Blanks]) (by simp [Blanks]) fun c hc => (hplain c hc).2
    exact .word (by simpa using htrim) hw (ih hwords)

theorem lists_items (s : String) : Lists s.toList ((items s).map String.toList) :=
  items_eq_iff.1 (by simp [Function.comp_def])

end
end CallBridge.Text
