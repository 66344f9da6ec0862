import CallBridge.CText.Request
import Mathlib.Data.Finset.Card
import Mathlib.Data.List.Nodup

/-!
# One text for each length

Whatever order requests take their steps in, the table holds one text for each capped length that
was served, at the place of its address, and only grows (`Served`). A request that found nothing and
comes to add a text takes the one that another request has added in between (`Move.shared`); this is
why two requests that both miss get the same text.
-/

namespace CallBridge.CText

/-! ### Pattern texts -/

theorem patternByte_ne_zero (i : Nat) : patternByte i ≠ 0 := by
  have hlt : 65 + i % 26 < 256 := by omega
  intro h
  have hbyte := congrArg UInt8.toNat h
  simp [patternByte, Nat.mod_eq_of_lt hlt] at hbyte

theorem length_terminated_pattern (n : Nat) : (terminated (pattern n)).length = n + 1 := by
  simp [terminated, pattern]

theorem terminated_pattern_of_lt {n i : Nat} (h : i < n) :
    (terminated (pattern n))[i]? = some (patternByte i) := by
  simp [terminated, pattern, List.getElem?_append, h]

theorem terminated_pattern_last (n : Nat) : (terminated (pattern n))[n]? = some 0 := by
  simp [terminated, pattern]

namespace PatternTable
variable {t t' : PatternTable} {length : Nat} {text : PatternText}

/-- The text that a request for a length would make. -/
def fresh (t : PatternTable) (length : Nat) : PatternText :=
  ⟨t.size, length, terminated (pattern length)⟩

theorem add_of_some (h : t.find? length = some text) : t.add length = (text, t) := by
  simp [add, h]

theorem add_of_none (h : t.find? length = none) :
    t.add length = (t.fresh length, ⟨t.texts ++ [t.fresh length]⟩) := by
  simp [add, h, fresh]

theorem mem_of_find? (h : t.find? length = some text) :
    text ∈ t.texts ∧ text.length = length :=
  ⟨List.mem_of_find?_eq_some h, by simpa using List.find?_some h⟩

theorem ne_of_find?_eq_none (h : t.find? length = none) : ∀ text ∈ t.texts, text.length ≠ length := by
  simpa [find?] using h

/-- Each text stands at the place of its address and holds its pattern, and no two are of one
length. -/
structure WellKept (t : PatternTable) : Prop where
  address : ∀ (i : Nat) (text : PatternText), t.texts[i]? = some text → text.address = i
  memory : ∀ text ∈ t.texts, text.memory = terminated (pattern text.length)
  bounded : ∀ text ∈ t.texts, text.length ≤ maxLength
  distinct : (t.texts.map (·.length)).Nodup

namespace WellKept

theorem empty : WellKept {} := by
  refine ⟨?_, ?_, ?_, ?_⟩ <;> simp

theorem push (h : t.WellKept) (hnone : t.find? length = none) (hlength : length ≤ maxLength) :
    WellKept ⟨t.texts ++ [t.fresh length]⟩ := by
  refine ⟨fun i text hi => ?_, fun text htext => ?_, fun text htext => ?_, ?_⟩
  · rcases Nat.lt_trichotomy i t.texts.length with hlt | rfl | hgt
    · rw [List.getElem?_append_left hlt] at hi
      exact h.address i text hi
    · obtain rfl : t.fresh length = text := by simpa using hi
      rfl
    · have hout : (t.texts ++ [t.fresh length]).length ≤ i := by
        simpa [Nat.succ_le_iff] using hgt
      rw [List.getElem?_eq_none hout] at hi
      cases hi
  · rcases List.mem_append.1 htext with htext | htext
    · exact h.memory text htext
    · rw [List.mem_singleton.1 htext]
      rfl
  · rcases List.mem_append.1 htext with htext | htext
    · exact h.bounded text htext
    · rw [List.mem_singleton.1 htext]
      exact hlength
  · rw [List.map_append, List.nodup_append]
    refine ⟨h.distinct, by simp, ?_⟩
    rintro _ hmem _ hnew rfl
    obtain ⟨text, htext, hlen⟩ := List.mem_map.1 hmem
    rw [List.map_singleton, List.mem_singleton] at hnew
    exact ne_of_find?_eq_none hnone text htext (hlen.trans hnew)

/-- Texts of one length are one text. -/
theorem eq_of_length (h : t.WellKept) {u : PatternText} (ht : text ∈ t.texts) (hu : u ∈ t.texts)
    (hlength : text.length = u.length) : text = u :=
  List.inj_on_of_nodup_map h.distinct ht hu hlength

theorem eq_of_address (h : t.WellKept) {u : PatternText} (ht : text ∈ t.texts) (hu : u ∈ t.texts)
    (haddress : text.address = u.address) : text = u := by
  obtain ⟨i, hi⟩ := List.mem_iff_getElem?.1 ht
  obtain ⟨j, hj⟩ := List.mem_iff_getElem?.1 hu
  obtain rfl : i = j := by rw [← h.address i text hi, haddress, h.address j u hj]
  exact Option.some.inj (hi.symm.trans hj)

theorem getElem?_address (h : t.WellKept) (ht : text ∈ t.texts) :
    t.texts[text.address]? = some text := by
  obtain ⟨i, hi⟩ := List.mem_iff_getElem?.1 ht
  rwa [h.address i text hi]

end WellKept
end PatternTable

namespace Request
open PatternTable

/-! ### One step -/

/-- What a step of a request does to the table and to the request. -/
inductive Move (t : PatternTable) : Request → PatternTable → Request → Prop
  | found {n : Nat} {text : PatternText} (h : t.find? (min n maxLength) = some text) :
      Move t (asking n) t (served text)
  | absent {n : Nat} (h : t.find? (min n maxLength) = none) :
      Move t (asking n) t (missed (min n maxLength))
  | shared {length : Nat} {text : PatternText} (h : t.find? length = some text) :
      Move t (missed length) t (served text)
  | made {length : Nat} (h : t.find? length = none) :
      Move t (missed length) ⟨t.texts ++ [t.fresh length]⟩ (served (t.fresh length))
  | rested {text : PatternText} : Move t (served text) t (served text)

theorem move_advance (t : PatternTable) (r : Request) : Move t r (advance t r).1 (advance t r).2 := by
  cases r with
  | asking n =>
    cases h : t.find? (min n maxLength) with
    | some text => simpa [advance, h] using Move.found h
    | none => simpa [advance, h] using Move.absent h
  | missed length =>
    cases h : t.find? length with
    | some text => simpa [advance, add_of_some h] using Move.shared h
    | none => simpa [advance, add_of_none h] using Move.made h
  | served text => exact .rested

variable {t t' : PatternTable} {r r' : Request}

theorem Move.grows (m : Move t r t' r') : t.texts <+: t'.texts := by
  cases m with
  | made => exact List.prefix_append ..
  | found | absent | shared | rested => exact List.prefix_refl _

/-- The steps that a request has still to take at most. -/
def remaining : Request → Nat
  | asking _ => 2
  | missed _ => 1
  | served _ => 0

theorem Move.remaining (m : Move t r t' r') : r'.remaining ≤ r.remaining - 1 := by
  cases m <;> simp [Request.remaining]

def isServed : Request → Bool
  | served _ => true
  | _ => false

theorem exists_of_isServed (h : r.isServed) : ∃ text, r = served text := by
  cases r with
  | served text => exact ⟨text, rfl⟩
  | asking | missed => cases h

/-- What a request for a length knows, with a table at hand. -/
inductive Knows (t : PatternTable) (n : Nat) : Request → Prop
  | asking : Knows t n (asking n)
  | missed : Knows t n (missed (min n maxLength))
  | served {text : PatternText} (h : text ∈ t.texts) (hlength : text.length = min n maxLength) :
      Knows t n (served text)

theorem Knows.mono {n : Nat} (h : Knows t n r) (hsub : t.texts ⊆ t'.texts) : Knows t' n r := by
  cases h with
  | asking => exact .asking
  | missed => exact .missed
  | served hmem hlength => exact .served (hsub hmem) hlength

theorem Knows.step {n : Nat} (h : Knows t n r) (m : Move t r t' r') : Knows t' n r' := by
  cases m with
  | found hfind =>
    cases h
    obtain ⟨hmem, hlength⟩ := mem_of_find? hfind
    exact .served hmem hlength
  | absent =>
    cases h
    exact .missed
  | shared hfind =>
    cases h
    obtain ⟨hmem, hlength⟩ := mem_of_find? hfind
    exact .served hmem hlength
  | made =>
    cases h
    exact .served (by simp) rfl
  | rested => exact h

theorem Knows.wellKept {n : Nat} (h : Knows t n r) (m : Move t r t' r') (ht : t.WellKept) : t'.WellKept := by
  cases m with
  | made hnone =>
    cases h
    exact ht.push hnone (Nat.min_le_right ..)
  | found | absent | shared | rested => exact ht

/-! ### A whole run -/

/-- The table is sound, every request knows what its length and the table tell, and every text was
made for a request that was served it. -/
structure Served (lengths : Nat → Nat) (c : Crowd PatternTable Request) : Prop where
  wellKept : c.shared.WellKept
  knows : ∀ i, Knows c.shared (lengths i) (c.position i)
  origin : ∀ text ∈ c.shared.texts, ∃ i, c.position i = served text

variable {lengths : Nat → Nat} {c : Crowd PatternTable Request}

theorem Served.start (lengths : Nat → Nat) : Served lengths (fresh lengths) :=
  ⟨.empty, fun _ => .asking, by simp [fresh]⟩

theorem Served.step (h : Served lengths c) (i : Nat) :
    Served lengths (c.step (fun _ => advance) i) := by
  have m := move_advance c.shared (c.position i)
  have hkept : ∀ j text, c.position j = served text →
      (c.step (fun _ => advance) i).position j = served text :=
    fun j text hj => Crowd.rest_step (fun _ => rfl) hj
  refine ⟨(h.knows i).wellKept m h.wellKept, fun j => ?_, fun text htext => ?_⟩
  · by_cases hji : j = i
    · subst hji
      rw [Crowd.position_step_self]
      exact (h.knows j).step m
    · rw [Crowd.position_step_of_ne hji]
      exact (h.knows j).mono m.grows.subset
  · -- a text that is new was made in this very step
    by_cases hold : text ∈ c.shared.texts
    · obtain ⟨j, hj⟩ := h.origin text hold
      exact ⟨j, hkept j text hj⟩
    · refine ⟨i, ?_⟩
      rw [Crowd.position_step_self]
      rw [Crowd.shared_step] at htext
      generalize c.position i = r at m htext
      generalize (advance c.shared r).1 = t' at m htext
      generalize (advance c.shared r).2 = r' at m
      cases m with
      | made =>
        rcases List.mem_append.1 htext with htext | htext
        · exact absurd htext hold
        · rw [List.mem_singleton.1 htext]
      | found | absent | shared | rested => exact absurd htext hold

theorem served_serve (lengths : Nat → Nat) (schedule : List Nat) :
    Served lengths (serve lengths schedule) :=
  Crowd.run_induction (.start lengths) (fun _ i h => h.step i) schedule

/-- A later state of a crowd: texts and answers have stayed. -/
structure Onward (c d : Crowd PatternTable Request) : Prop where
  texts : c.shared.texts <+: d.shared.texts
  served : ∀ i text, c.position i = served text → d.position i = served text

/-- Texts and answers of a run stay whatever steps come after it. -/
theorem serve_append (lengths : Nat → Nat) (schedule later : List Nat) :
    Onward (serve lengths schedule) (serve lengths (schedule ++ later)) := by
  rw [serve, serve, Crowd.run_append, ← serve]
  generalize serve lengths schedule = c
  refine ⟨?_, fun i text hi => Crowd.rest_run (fun _ => rfl) hi later⟩
  refine @Crowd.run_induction _ _ _ c (fun d => c.shared.texts <+: d.shared.texts)
    (List.prefix_refl _) (fun d j h => ?_) later
  exact h.trans (move_advance d.shared (d.position j)).grows

/-- Two steps of its own serve a request, whatever the others do in between. -/
theorem remaining_serve (lengths : Nat → Nat) (schedule : List Nat) (i : Nat) :
    ((serve lengths schedule).position i).remaining ≤ 2 - schedule.count i :=
  Crowd.left_run remaining (fun t r => (move_advance t r).remaining) schedule

/-- Who is served has taken a step. -/
theorem mem_of_served {lengths : Nat → Nat} {schedule : List Nat} {i : Nat} {text : PatternText}
    (h : (serve lengths schedule).position i = served text) : i ∈ schedule := by
  by_contra hi
  have hstill : (serve lengths schedule).position i = asking (lengths i) :=
    Crowd.position_run_of_notMem hi
  rw [hstill] at h
  cases h

/-- The capped lengths of the requests that are served by then, each once. -/
def servedLengths (lengths : Nat → Nat) (schedule : List Nat) : Finset Nat :=
  (schedule.toFinset.filter fun i => ((serve lengths schedule).position i).isServed).image
    fun i => min (lengths i) maxLength

theorem mem_servedLengths {lengths : Nat → Nat} {schedule : List Nat} {n : Nat} :
    n ∈ servedLengths lengths schedule ↔
      ∃ text ∈ (serve lengths schedule).shared.texts, text.length = n := by
  have h := served_serve lengths schedule
  simp only [servedLengths, Finset.mem_image, Finset.mem_filter, List.mem_toFinset]
  constructor
  · rintro ⟨i, ⟨-, hi⟩, rfl⟩
    obtain ⟨text, htext⟩ := exists_of_isServed hi
    have hknows := h.knows i
    rw [htext] at hknows
    cases hknows with
    | served hmem hlength => exact ⟨text, hmem, hlength⟩
  · rintro ⟨text, hmem, rfl⟩
    obtain ⟨i, hi⟩ := h.origin text hmem
    have hknows := h.knows i
    rw [hi] at hknows
    cases hknows with
    | served _ hlength => exact ⟨i, ⟨mem_of_served hi, by rw [hi]; rfl⟩, hlength.symm⟩

theorem size_serve (lengths : Nat → Nat) (schedule : List Nat) :
    (serve lengths schedule).shared.size = (servedLengths lengths schedule).card := by
  have heq : servedLengths lengths schedule =
      ((serve lengths schedule).shared.texts.map (·.length)).toFinset := by
    ext n
    simp [mem_servedLengths]
  rw [heq, List.toFinset_card_of_nodup (served_serve lengths schedule).wellKept.distinct,
    List.length_map, PatternTable.size]

theorem size_serve_le (lengths : Nat → Nat) (schedule : List Nat) :
    (serve lengths schedule).shared.size ≤ 4097 := by
  have hsub : servedLengths lengths schedule ⊆ Finset.range 4097 := by
    intro n hn
    obtain ⟨text, hmem, rfl⟩ := mem_servedLengths.1 hn
    have := (served_serve lengths schedule).wellKept.bounded text hmem
    rw [maxLength] at this
    exact Finset.mem_range.2 (by omega)
  rw [size_serve]
  simpa using Finset.card_le_card hsub

/-- What a request was served is in the table, at its address and of its capped length. -/
theorem mem_of_position {lengths : Nat → Nat} {schedule : List Nat} {i : Nat} {text : PatternText}
    (h : (serve lengths schedule).position i = served text) :
    text ∈ (serve lengths schedule).shared.texts ∧ text.length = min (lengths i) maxLength := by
  have hknows := (served_serve lengths schedule).knows i
  rw [h] at hknows
  cases hknows with
  | served hmem hlength => exact ⟨hmem, hlength⟩

/-- Requests of any lengths, in any order of their steps: two steps of its own serve each; two are
served one buffer, at one address, exactly when their capped lengths agree; a buffer holds the
pattern of that length and one NUL, which is its last byte; the table counts the capped lengths
served so far, and whatever comes later leaves buffers and answers as they are. -/
theorem requests_share (lengths : Nat → Nat) (schedule : List Nat) :
    let c : Crowd PatternTable Request := serve lengths schedule
    (∀ i, 2 ≤ schedule.count i → ∃ text, c.position i = served text) ∧
    (∀ i j text other, c.position i = served text → c.position j = served other →
      (text = other ↔ min (lengths i) 4096 = min (lengths j) 4096) ∧
      (text.address = other.address ↔ min (lengths i) 4096 = min (lengths j) 4096)) ∧
    (∀ i text, c.position i = served text →
      text.memory.length = min (lengths i) 4096 + 1 ∧
      text.memory[min (lengths i) 4096]? = some 0 ∧
      ∀ k < min (lengths i) 4096,
        text.memory[k]? = some (UInt8.ofNat ('A'.toNat + k % 26)) ∧ text.memory[k]? ≠ some 0) ∧
    c.shared.size = (servedLengths lengths schedule).card ∧ c.shared.size ≤ 4097 ∧
    ∀ later, let d := serve lengths (schedule ++ later)
      c.shared.texts <+: d.shared.texts ∧
      ∀ i text, c.position i = served text →
        d.position i = served text ∧ d.shared.texts[text.address]? = some text := by
  intro c
  have h : Served lengths c := served_serve lengths schedule
  refine ⟨fun i hi => ?_, fun i j text other hi hj => ?_, fun i text hi => ?_,
    size_serve lengths schedule, size_serve_le lengths schedule, fun later => ?_⟩
  · have hnone := remaining_serve lengths schedule i
    change (c.position i).remaining ≤ _ at hnone
    cases hpos : c.position i with
    | served text => exact ⟨text, rfl⟩
    | asking | missed => rw [hpos, Request.remaining] at hnone; omega
  · obtain ⟨hmem, hlength⟩ := mem_of_position hi
    obtain ⟨hmem', hlength'⟩ := mem_of_position hj
    have hsame : text = other ↔ min (lengths i) 4096 = min (lengths j) 4096 := by
      constructor
      · rintro rfl
        exact hlength.symm.trans hlength'
      · exact fun heq => h.wellKept.eq_of_length hmem hmem' (hlength.trans (heq.trans hlength'.symm))
    exact ⟨hsame, fun heq => hsame.1 (h.wellKept.eq_of_address hmem hmem' heq),
      fun heq => congrArg (·.address) (hsame.2 heq)⟩
  · obtain ⟨hmem, hlength⟩ := mem_of_position hi
    rw [h.wellKept.memory text hmem, hlength]
    refine ⟨length_terminated_pattern _, terminated_pattern_last _, fun k hk => ?_⟩
    change k < min (lengths i) maxLength at hk
    rw [terminated_pattern_of_lt hk]
    exact ⟨rfl, fun heq => patternByte_ne_zero k (Option.some.inj heq)⟩
  · obtain ⟨hgrown, hstays⟩ := serve_append lengths schedule later
    refine ⟨hgrown, fun i text hi => ⟨hstays i text hi, ?_⟩⟩
    exact (served_serve lengths (schedule ++ later)).wellKept.getElem?_address
      (hgrown.subset (mem_of_position hi).1)

-- Both requests miss before either adds its text.
example : let c := serve (fun _ => 3) [0, 1, 1, 0]
    c.position 0 = served ⟨0, 3, [65, 66, 67, 0]⟩ ∧ c.position 1 = c.position 0 := by decide

end Request
end CallBridge.CText
