import CallBridge.Proofs.CText.SharedTable
import Mathlib.Data.List.TakeWhile

/-!
# Scanners agree

A scan of a terminated text answers the number of bytes before its first NUL, cut at its bound.
`scanReadable` is a scan that has no answer once it asks for a byte that cannot be read. On the
front of a text it has an answer exactly when this front holds the bytes up to the first NUL or the
bound (`scanReadable_unbounded`, `scanReadable_bounded`), and where it has one the plain scan has the
same (`scan_of_scanReadable`).
-/

namespace CallBridge.CText

/-- A scan of memory of which only these bytes can be read, none if it asks for one behind them. -/
def scanReadable : (bound : Option Nat) → (readable : Bytes) → Option (Nat × Bool)
  | some 0, _ => some (0, false)
  | _, [] => none
  | bound, b :: readable =>
    if b = 0 then some (0, true)
    else (scanReadable (bound.map (· - 1)) readable).map fun (n, met) => (n + 1, met)

variable {b : UInt8} {s readable : Bytes} {answer : Nat × Bool}

/-! ### The first NUL -/

theorem length_cons (b : UInt8) (s : Bytes) : length (b :: s) = if b = 0 then 0 else length s + 1 := by
  by_cases h : b = 0 <;> simp [length, h]

theorem length_of_lt {i : Nat} (h : i < length s) : ∃ b, s[i]? = some b ∧ b ≠ 0 := by
  induction s generalizing i with
  | nil => simp [length] at h
  | cons b s ih =>
    rw [length_cons] at h
    split at h
    · simp at h
    · cases i with
      | zero => exact ⟨b, rfl, by assumption⟩
      | succ i => exact ih (by omega)

theorem getElem?_length (s beyond : Bytes) : (terminated s ++ beyond)[length s]? = some 0 := by
  induction s with
  | nil => rfl
  | cons b s ih =>
    rw [length_cons]
    split
    · subst b; rfl
    · exact ih

theorem length_take (s beyond : Bytes) (bound : Nat) :
    length ((terminated s ++ beyond).take bound) = min (length s) bound := by
  induction s generalizing bound with
  | nil => cases bound <;> simp [terminated, length]
  | cons b s ih =>
    cases bound with
    | zero => simp [length]
    | succ bound =>
      show length (b :: (terminated s ++ beyond).take bound) = _
      rw [length_cons, length_cons, ih]
      split <;> omega

theorem zero_mem_take_iff (s beyond : Bytes) (bound : Nat) :
    0 ∈ (terminated s ++ beyond).take bound ↔ length s < bound := by
  induction s generalizing bound with
  | nil => cases bound <;> simp [terminated, length]
  | cons b s ih =>
    cases bound with
    | zero => simp
    | succ bound =>
      show 0 ∈ b :: (terminated s ++ beyond).take bound ↔ _
      rw [List.mem_cons, ih, length_cons]
      by_cases h : b = 0
      · simp [h]
      · simp [h, Ne.symm h]

/-! ### Readable memory -/

theorem scanReadable_append {bound : Option Nat} (h : scanReadable bound readable = some answer)
    (more : Bytes) : scanReadable bound (readable ++ more) = some answer := by
  fun_induction scanReadable bound readable generalizing answer with
  | case1 => simpa [scanReadable] using h
  | case2 => simp at h
  | case3 bound s hbound => simpa [scanReadable] using h
  | case4 bound b s hbound hb ih =>
    obtain ⟨a, ha, rfl⟩ := Option.map_eq_some_iff.1 h
    simp [scanReadable, hb, ih ha]

/-- What is answered without a byte asked for in vain is the answer of the plain scan. -/
theorem scan_of_scanReadable {bound : Option Nat} (h : scanReadable bound readable = some answer) :
    scan (some readable) bound = answer := by
  fun_induction scanReadable bound readable generalizing answer with
  | case1 => simpa [scan, scanWithin] using h
  | case2 => simp at h
  | case3 bound s hbound =>
    obtain rfl := Option.some.inj h
    cases bound with
    | none => simp [scan, scanToEnd]
    | some bound =>
      cases bound with
      | zero => exact (hbound rfl).elim
      | succ bound => simp [scan, scanWithin]
  | case4 bound b s hbound hb ih =>
    obtain ⟨a, ha, rfl⟩ := Option.map_eq_some_iff.1 h
    have hscan := ih ha
    cases bound with
    | none =>
      change scanToEnd s = a at hscan
      simp [scan, scanToEnd, hb, hscan]
    | some bound =>
      cases bound with
      | zero => exact (hbound rfl).elim
      | succ bound =>
        change scanWithin bound s = a at hscan
        simp [scan, scanWithin, hb, hscan]

/-! ### Which bytes are asked for -/

/-- Without a bound, the bytes up to the first NUL are asked for, and no other. -/
theorem scanReadable_unbounded (s beyond : Bytes) (k : Nat) :
    scanReadable none ((terminated s ++ beyond).take k) =
      if length s < k then some (length s, true) else none := by
  induction s generalizing k with
  | nil => cases k <;> simp [terminated, scanReadable, length]
  | cons b s ih =>
    cases k with
    | zero => simp [scanReadable]
    | succ k =>
      show scanReadable none (b :: (terminated s ++ beyond).take k) = _
      rw [scanReadable, length_cons]
      by_cases hb : b = 0
      · simp [hb]
      · rw [if_neg hb, if_neg hb, Option.map_none, ih]
        by_cases hk : length s < k <;> simp [hk]
      · rintro ⟨⟩

/-- With a bound, they are asked for as long as they are below it. -/
theorem scanReadable_bounded (s beyond : Bytes) (bound k : Nat) :
    scanReadable (some bound) ((terminated s ++ beyond).take k) =
      if min (length s + 1) bound ≤ k then some (min (length s) bound, decide (length s < bound))
      else none := by
  induction s generalizing bound k with
  | nil =>
    cases bound with
    | zero => simp [scanReadable, length]
    | succ bound => cases k <;> simp [terminated, scanReadable, length]
  | cons b s ih =>
    cases bound with
    | zero => simp [scanReadable]
    | succ bound =>
      cases k with
      | zero => simp [scanReadable]
      | succ k =>
        show scanReadable (some (bound + 1)) (b :: (terminated s ++ beyond).take k) = _
        rw [scanReadable, length_cons]
        · by_cases hb : b = 0
          · simp [hb]
          · rw [if_neg hb, if_neg hb, Option.map_some, Nat.add_sub_cancel, ih]
            by_cases hk : min (length s + 1) bound ≤ k <;> simp [hk]
        · rintro ⟨⟩

theorem scan_unbounded (s beyond : Bytes) :
    scan (some (terminated s ++ beyond)) none = (length s, true) := by
  have h := scanReadable_unbounded s beyond (length s + 1)
  rw [if_pos (Nat.lt_succ_self _)] at h
  have hscan := scan_of_scanReadable
    (scanReadable_append h ((terminated s ++ beyond).drop (length s + 1)))
  rwa [List.take_append_drop] at hscan

theorem scan_bounded (s beyond : Bytes) (bound : Nat) :
    scan (some (terminated s ++ beyond)) (some bound) =
      (min (length s) bound, decide (length s < bound)) := by
  have h := scanReadable_bounded s beyond bound (min (length s + 1) bound)
  rw [if_pos (Nat.le_refl _)] at h
  have hscan := scan_of_scanReadable
    (scanReadable_append h ((terminated s ++ beyond).drop (min (length s + 1) bound)))
  rwa [List.take_append_drop] at hscan

/-! ### Texts handed out -/

theorem length_pattern (n : Nat) : length (pattern n) = n := by
  have hall : ∀ b ∈ pattern n, decide (b ≠ 0) = true := by
    intro b hb
    obtain ⟨i, -, rfl⟩ := List.mem_map.1 hb
    simpa using patternByte_ne_zero i
  rw [length, List.takeWhile_eq_self_iff.2 hall]
  simp [pattern]

theorem reportedLength_pattern {n : Nat} (h : n ≤ maxLength) :
    reportedLength (some (terminated (pattern n))) = n := by
  have hscan := scan_unbounded (pattern n) []
  rw [List.append_nil, length_pattern] at hscan
  rw [reportedLength, hscan]
  exact Nat.min_eq_left (Nat.le_trans h (by decide))

theorem PatternTable.WellKept.memory_get {t : PatternTable} (ht : t.WellKept) (request : Nat) :
    (t.get request).1.memory = terminated (pattern (min request maxLength)) := by
  rw [get]
  cases h : t.find? (min request maxLength) with
  | some text =>
    obtain ⟨hmem, hlength⟩ := mem_of_find? h
    simpa [h, hlength] using ht.memory text hmem
  | none => simp [add_of_none h, fresh]

theorem natCast_requested (n : Int32) :
    ((min (requestedLength n) maxLength : Nat) : Int) = min (max n.toInt 0) 4096 := by
  rw [requestedLength, maxLength]
  omega

/-- Two steps of its own serve a request. -/
theorem Request.exists_served {lengths : Nat → Nat} {schedule : List Nat} {i : Nat}
    (h : 2 ≤ schedule.count i) : ∃ text, (serve lengths schedule).position i = served text := by
  have hnone := remaining_serve lengths schedule i
  cases hpos : (serve lengths schedule).position i with
  | served text => exact ⟨text, rfl⟩
  | asking | missed =>
    rw [hpos, Request.remaining] at hnone
    omega

/-- The scans of a text, whatever stands behind its terminator: with and without a bound they agree
on the bytes before the first NUL, and ask for no byte behind it or at the bound; the text handed out
for a number, in whatever order requests take their steps, is as long as the number, from none up to
the longest. -/
theorem scanners_agree (s beyond : Bytes) :
    let l := length s
    let memory := terminated s ++ beyond
    ((∀ i < l, ∃ b, s[i]? = some b ∧ b ≠ 0) ∧ memory[l]? = some 0) ∧
    scan (some memory) none = (l, true) ∧
    (∀ bound, scan (some memory) (some bound) = (min l bound, decide (l < bound)) ∧
      length (memory.take bound) = min l bound ∧ (0 ∈ memory.take bound ↔ l < bound)) ∧
    (∀ bound readable answer, scanReadable bound readable = some answer →
      scan (some readable) bound = answer) ∧
    (∀ k, scanReadable none (memory.take k) = if l < k then some (l, true) else none) ∧
    (∀ bound k, scanReadable (some bound) (memory.take k) =
      if min (l + 1) bound ≤ k then some (min l bound, decide (l < bound)) else none) ∧
    (l < Nat.pow 2 63 → reportedLength (some memory) = l) ∧
    (∀ bound, scan none bound = (0, false)) ∧ reportedLength none = 0 ∧
    ∀ (numbers : Nat → Int32) (schedule : List Nat),
      let c := Request.serve (fun i => requestedLength (numbers i)) schedule
      (∀ i, 2 ≤ schedule.count i → ∃ text, c.position i = .served text ∧
        (reportedLength (some text.memory) : Int) = min (max (numbers i).toInt 0) 4096) ∧
      ∀ n, (reportedLength (some (c.shared.get (requestedLength n)).1.memory) : Int) =
        min (max n.toInt 0) 4096 := by
  intro l memory
  refine ⟨⟨fun i => length_of_lt, getElem?_length s beyond⟩, scan_unbounded s beyond,
    fun bound => ⟨scan_bounded s beyond bound, length_take s beyond bound,
      zero_mem_take_iff s beyond bound⟩, fun _ _ _ => scan_of_scanReadable,
    scanReadable_unbounded s beyond, scanReadable_bounded s beyond, fun hl => ?_, fun _ => rfl, rfl, fun numbers schedule => ?_⟩
  · rw [reportedLength, scan_unbounded]
    exact Nat.min_eq_left (Nat.le_sub_one_of_lt hl)
  · intro c
    have hserved := Request.served_serve (fun i => requestedLength (numbers i)) schedule
    have hreported : ∀ n : Int32,
        (reportedLength (some (terminated (pattern (min (requestedLength n) maxLength)))) : Int) =
          min (max n.toInt 0) 4096 := by
      intro n
      rw [reportedLength_pattern (Nat.min_le_right ..), natCast_requested]
    constructor
    · intro i hi
      obtain ⟨text, htext⟩ := Request.exists_served hi
      obtain ⟨hmem, hlength⟩ := Request.mem_of_position htext
      refine ⟨text, htext, ?_⟩
      rw [hserved.wellKept.memory text hmem, hlength]
      exact hreported (numbers i)
    · intro n
      rw [hserved.wellKept.memory_get]
      exact hreported n

theorem scanners_agree_interior :
    let s : Bytes := [98, 0, 99]
    let memory := terminated s ++ [7]
    let numbers : Nat → Int32 := fun i => if i = 0 then -3 else 5000
    let c := Request.serve (fun i => requestedLength (numbers i)) [0, 1, 1, 0]
    0 < length s ∧ length s < Nat.pow 2 63 ∧ [0, 1, 1, 0].count 1 = 2 ∧
      scan (some memory) (some 1) = (1, false) ∧ scan (some memory) (some 2) = (1, true) ∧
      scanReadable (some 2) (memory.take 1) = none ∧ reportedLength (some memory) = 1 ∧
      ∃ text, c.position 1 = .served text ∧ (reportedLength (some text.memory) : Int) = 4096 := by
  intro s memory numbers c
  have hlength : length s < Nat.pow 2 63 := by decide
  obtain ⟨-, -, hbounded, -, -, hreadable, hreported, -, -, hserved⟩ := scanners_agree s [7]
  refine ⟨by decide, hlength, by decide, (hbounded 1).1, (hbounded 2).1, hreadable 2 1,
    hreported hlength, ?_⟩
  obtain ⟨text, htext, hlong⟩ := (hserved numbers [0, 1, 1, 0]).1 1 (by decide)
  exact ⟨text, htext, hlong⟩

end CallBridge.CText
