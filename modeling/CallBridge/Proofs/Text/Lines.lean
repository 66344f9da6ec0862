import CallBridge.Text.Blank
import Mathlib.Data.List.Basic

/-!
# Lines of a text

A text falls into the parts between its separators, and a separator parts it wherever it stands
(`splitChars_spec`, `splitChars_append_cons`); the lines are the parts between line feeds. A line that
holds no line feed and has no blank at either end is found again in a text of such lines, be the last
one ended or not (`lines_of_isLine`).
-/

namespace CallBridge.Text

section
variable {c : Char} {s : List Char}

theorem splitChars_of_notMem (h : c ∉ s) : splitChars c s = [s] := by
  induction s with
  | nil => rfl
  | cons d s ih =>
    rw [List.mem_cons, not_or] at h
    have htail := ih h.2
    rw [splitChars] at htail ⊢
    rw [List.foldr_cons, htail, if_neg (Ne.symm h.1)]

theorem splitChars_ne_nil (c : Char) (s : List Char) : splitChars c s ≠ [] := by
  cases s with
  | nil => simp [splitChars]
  | cons d s =>
    rw [splitChars, List.foldr_cons]
    split_ifs
    · simp
    · split <;> simp

theorem splitChars_cons_self (c : Char) (s : List Char) :
    splitChars c (c :: s) = [] :: splitChars c s := by
  simp [splitChars]

theorem splitChars_cons_of_ne {d : Char} (hd : d ≠ c) (s : List Char) :
    ∃ part rest, splitChars c s = part :: rest ∧ splitChars c (d :: s) = (d :: part) :: rest := by
  obtain ⟨part, rest, hs⟩ := List.exists_cons_of_ne_nil (splitChars_ne_nil c s)
  refine ⟨part, rest, hs, ?_⟩
  rw [splitChars] at hs ⊢
  rw [List.foldr_cons, if_neg hd, hs]

/-- A separator parts a text, wherever it stands. -/
theorem splitChars_append_cons (c : Char) (s t : List Char) :
    splitChars c (s ++ c :: t) = splitChars c s ++ splitChars c t := by
  induction s with
  | nil => simp [splitChars]
  | cons d s ih =>
    rw [List.cons_append]
    by_cases hd : d = c
    · subst hd
      rw [splitChars_cons_self, splitChars_cons_self, ih, List.cons_append]
    · obtain ⟨part, rest, hs, hds⟩ := splitChars_cons_of_ne hd s
      obtain ⟨part', rest', hs', hds'⟩ := splitChars_cons_of_ne hd (s ++ c :: t)
      rw [ih, hs, List.cons_append] at hs'
      obtain ⟨rfl, rfl⟩ := List.cons.inj hs'
      rw [hds, hds', List.cons_append]

theorem splitChars_append (h : c ∉ s) (rest : List Char) :
    splitChars c (s ++ c :: rest) = s :: splitChars c rest := by
  rw [splitChars_append_cons, splitChars_of_notMem h, List.singleton_append]

theorem splitChars_flatMap {ls : List (List Char)} (h : ∀ l ∈ ls, c ∉ l) (hs : c ∉ s) :
    splitChars c (ls.flatMap (· ++ [c]) ++ s) = ls ++ [s] := by
  induction ls with
  | nil => exact splitChars_of_notMem hs
  | cons l ls ih =>
    have hl := h l (List.mem_cons_self ..)
    rw [List.flatMap_cons, List.append_assoc, List.append_assoc, List.singleton_append,
      splitChars_append hl, ih fun l hl => h l (List.mem_cons_of_mem _ hl), List.cons_append]

/-- The parts of a text hold no separator, and with one behind each but the last they are the
text. -/
theorem splitChars_spec (c : Char) (s : List Char) :
    ∃ ended rest, splitChars c s = ended ++ [rest] ∧ (∀ l ∈ ended, c ∉ l) ∧ c ∉ rest ∧
      s = ended.flatMap (· ++ [c]) ++ rest := by
  induction s with
  | nil => exact ⟨[], [], by simp [splitChars]⟩
  | cons d s ih =>
    obtain ⟨ended, rest, hsplit, hended, hrest, hs⟩ := ih
    by_cases hd : d = c
    · subst hd
      refine ⟨[] :: ended, rest, by rw [splitChars_cons_self, hsplit]; rfl, ?_, hrest, ?_⟩
      · simpa using hended
      · simpa using hs
    · obtain ⟨part, parts, hs', hds⟩ := splitChars_cons_of_ne hd s
      rw [hsplit] at hs'
      cases ended with
      | nil =>
        obtain ⟨rfl, rfl⟩ := List.cons.inj hs'
        refine ⟨[], d :: rest, hds, by simp, ?_, by simpa using hs⟩
        simp [hrest, Ne.symm hd]
      | cons l ended =>
        obtain ⟨rfl, rfl⟩ := List.cons.inj hs'
        rw [List.forall_mem_cons] at hended
        refine ⟨(d :: l) :: ended, rest, hds, ?_, hrest, by simpa using hs⟩
        rw [List.forall_mem_cons]
        exact ⟨by simp [hended.1, Ne.symm hd], hended.2⟩

end

theorem toList_ofLines (ls : List String) :
    (ofLines ls).toList = (ls.map String.toList).flatMap (· ++ ['\n']) := by
  rw [ofLines, String.toList_join, List.flatMap_map, List.flatMap_map]
  refine List.flatMap_congr fun l _ => ?_
  exact String.toList_append

theorem trimChars_concat {b : Char} (hb : isBlank b) (l : List Char) :
    trimChars (l ++ [b]) = trimChars l := by
  rw [trimChars, trimChars, List.dropWhile_append]
  split
  · next hall =>
    rw [List.isEmpty_iff.1 hall, List.dropWhile_cons_of_pos hb]
    simp
  · rw [List.reverse_append, List.reverse_singleton, List.singleton_append,
      List.dropWhile_cons_of_pos hb]

theorem trimChars_dropReturn (l : List Char) : trimChars (dropReturn l) = trimChars l := by
  unfold dropReturn
  split
  · next rest hrest =>
    obtain rfl : l = rest.reverse ++ ['\r'] := by
      rw [← List.reverse_inj, hrest]
      simp
    exact (trimChars_concat (by decide) rest.reverse).symm
  · rfl

/-- A line that is not blank, and is its own trimmed text. -/
structure IsLine (l : List Char) : Prop where
  feed : '\n' ∉ l
  first : ∃ c, l.head? = some c ∧ isBlank c = false
  last : ∃ c, l.getLast? = some c ∧ isBlank c = false

namespace IsLine
variable {l : List Char}

theorem ne_nil (h : IsLine l) : l ≠ [] := by
  rintro rfl
  obtain ⟨c, hc, -⟩ := h.first
  cases hc

theorem dropReturn_eq (h : IsLine l) : dropReturn l = l := by
  obtain ⟨c, hc, hblank⟩ := h.last
  unfold dropReturn
  split
  · next rest hrest =>
    rw [← List.head?_reverse, hrest] at hc
    obtain rfl := Option.some.inj hc
    exact absurd hblank (by decide)
  · rfl

theorem trimChars_eq (h : IsLine l) : trimChars l = l := by
  have hkeeps : ∀ {s : List Char}, (∃ c, s.head? = some c ∧ isBlank c = false) →
      s.dropWhile isBlank = s := by
    rintro (_ | ⟨d, s⟩) ⟨c, hc, hblank⟩
    · rfl
    · obtain rfl := Option.some.inj hc
      exact List.dropWhile_cons_of_neg (by simp [hblank])
  have hlast := h.last
  rw [← List.head?_reverse] at hlast
  rw [trimChars, hkeeps h.first, hkeeps hlast, List.reverse_reverse]

end IsLine

/-- The parts between line feeds are the lines, with a return at the end cut off where a line feed
follows it; an empty part after the last line feed is none. -/
theorem lines_of_splitChars {s : String} {ended : List (List Char)} {rest : List Char}
    (h : splitChars '\n' s.toList = ended ++ [rest]) :
    lines s = ended.map dropReturn ++ if rest = [] then [] else [rest] := by
  rw [lines, h]
  simp only [List.dropLast_concat, List.getLast?_concat]
  cases rest <;> simp

/-- The lines of a text are those it was put together from, the last one being ended or not. -/
theorem lines_of_isLine {s : String} {ls : List (List Char)} {last : List Char}
    (hs : s.toList = ls.flatMap (· ++ ['\n']) ++ last) (h : ∀ l ∈ ls, IsLine l)
    (hlast : last = [] ∨ IsLine last) :
    lines s = ls ++ if last = [] then [] else [last] := by
  have hfeed : '\n' ∉ last := by
    rcases hlast with rfl | hlast
    · exact List.not_mem_nil
    · exact hlast.feed
  have hended : ls.map dropReturn = ls :=
    (List.map_congr_left fun l hl => (h l hl).dropReturn_eq).trans (List.map_id' ls)
  have hsplit : splitChars '\n' s.toList = ls ++ [last] := by
    rw [hs, splitChars_flatMap (fun l hl => (h l hl).feed) hfeed]
  rw [lines_of_splitChars hsplit, hended]

end CallBridge.Text
