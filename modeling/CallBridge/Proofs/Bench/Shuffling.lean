import CallBridge.Proofs.Bench.Inputs

/-!
# How an input is shuffled

A shuffle goes from the last position down to the second, draws a position at or before each and
exchanges the two. `exchangeAll?` does the same in words and with every step checked: it gives up at
a division by zero and at a position outside of the buffer. It never does, whatever the seed, and
comes to the same buffer (`exchangeAll?_descent`). So every input is an arrangement of the numbers
from zero on (`generate_arranges`).
-/

namespace CallBridge.Bench
open CallBridge.Sort

/-! ### Checked steps -/

/-- The next number modulo a bound, unless that is a division by zero. -/
def Generator.below? (g : Generator) (bound : UInt64) : Option (UInt64 × Generator) :=
  let (x, g) := g.next
  if bound = 0 then none else some (x % bound, g)

/-- Exchange two elements, unless one of them is outside of the buffer. -/
def exchange? (buffer : Array Int32) (i j : Nat) : Option (Array Int32) :=
  if h : i < buffer.size ∧ j < buffer.size then some (buffer.swap i j h.1 h.2) else none

/-- A position of a shuffle and the one that was drawn for it. -/
structure Draw where
  place : Nat
  drawn : Nat

/-- Draw a position at or before each of these and exchange the two. -/
def exchangeAll? :
    List Nat → Array Int32 → Generator → Option (List Draw × Array Int32)
  | [], buffer, _ => some ([], buffer)
  | i :: rest, buffer, g => do
    let (j, g) ← g.below? (UInt64.ofNat (i + 1))
    let buffer ← exchange? buffer i j.toNat
    let (draws, buffer) ← exchangeAll? rest buffer g
    return (⟨i, j.toNat⟩ :: draws, buffer)

/-- The positions from the last of so many down to the second. -/
def descent (n : Nat) : List Nat := (List.range' 1 (n - 1)).reverse

theorem descent_succ_succ (n : Nat) : descent (n + 2) = (n + 1) :: descent (n + 1) := by
  simp [descent, List.range'_concat, Nat.add_comm]

theorem lt_of_mem_descent {n i : Nat} (h : i ∈ descent n) : i < n := by
  simp [descent, List.mem_range'_1] at h
  omega

/-! ### No step fails -/

theorem Generator.below?_eq (g : Generator) {n : Nat} (hn : n + 1 < 2 ^ 64) :
    ∃ j : UInt64, g.below? (UInt64.ofNat (n + 1)) = some (j, (g.upTo n).2) ∧
      j.toNat = (g.upTo n).1 := by
  have hword : (UInt64.ofNat (n + 1)).toNat = n + 1 := UInt64.toNat_ofNat_of_lt' hn
  have hbound : UInt64.ofNat (n + 1) ≠ 0 := by
    intro hzero
    rw [hzero] at hword
    cases hword
  refine ⟨g.next.1 % UInt64.ofNat (n + 1), ?_, ?_⟩
  · simp only [below?, if_neg hbound]
    rfl
  · rw [UInt64.toNat_mod, hword]
    rfl

theorem exchange?_eq (buffer : Array Int32) {i j : Nat} (hi : i < buffer.size)
    (hj : j < buffer.size) : exchange? buffer i j = some (buffer.swapIfInBounds i j) := by
  rw [exchange?, dif_pos ⟨hi, hj⟩, Array.swapIfInBounds_def, dif_pos hi, dif_pos hj]

/-- The checked shuffle comes to the end, with every position drawn among those not yet passed, and
leaves the same buffer. -/
theorem exchangeAll?_descent {n : Nat} (hn : n < 2 ^ 64) (buffer : Array Int32)
    (hsize : n ≤ buffer.size) (g : Generator) :
    ∃ draws, exchangeAll? (descent n) buffer g = some (draws, shuffle n buffer g) ∧
      draws.map Draw.place = descent n ∧ ∀ d ∈ draws, d.drawn ≤ d.place := by
  fun_induction shuffle n buffer g with
  | case1 buffer => exact ⟨[], rfl, rfl, by simp⟩
  | case2 buffer => exact ⟨[], rfl, rfl, by simp⟩
  | case3 n buffer g j g' hdraw ih =>
    have hj : j.val < n + 2 := j.isLt
    have hplace : n + 1 < buffer.size := by omega
    have hexchange := exchange?_eq buffer hplace (show j.val < buffer.size by omega)
    obtain ⟨word, hbelow, hword⟩ := g.below?_eq hn
    obtain ⟨draws, hrest, hplaces, hdrawn⟩ := ih (by omega) (by simpa using by omega)
    rw [hdraw] at hbelow hword
    refine ⟨⟨n + 1, j⟩ :: draws, ?_, ?_, ?_⟩
    · rw [descent_succ_succ, exchangeAll?, hbelow]
      simp [hword, hexchange, hrest]
    · rw [descent_succ_succ, ← hplaces]
      rfl
    · rintro d hd
      rcases List.mem_cons.1 hd with rfl | hd
      · exact Nat.lt_succ_iff.1 hj
      · exact hdrawn d hd

/-! ### Arrangements of the numbers from zero on -/

/-- The numbers from zero on. -/
def fromZero (n : Nat) : List Int := (List.range n).map (↑)

/-- The numbers that a buffer holds. -/
def numbersIn (buffer : Array Int32) : List Int := buffer.toList.map Int32.toInt

theorem numbersIn_perm {a b : Array Int32} (h : a.Perm b) : (numbersIn a).Perm (numbersIn b) :=
  h.toList.map Int32.toInt

theorem numbersIn_upward {n : Nat} (h : n ≤ 2 ^ 31) : numbersIn (upward n) = fromZero n := by
  simp only [numbersIn, upward, fromZero, Array.toList_map, Array.toList_range, List.map_map]
  refine List.map_congr_left fun i hi => ?_
  exact Int32.toInt_ofNat_of_lt (by simp at hi; omega)

theorem numbersIn_reverse (buffer : Array Int32) :
    numbersIn buffer.reverse = (numbersIn buffer).reverse := by
  simp [numbersIn]

/-- Every input of at most so many elements as there are numbers holds each number below its length
once: upwards, downwards, or in the order that a shuffle brought them to. In the shuffle no draw is
a division by zero, every position that is drawn lies at or before the one it is drawn for, and
every exchange stays inside of the buffer. -/
theorem generate_arranges (arrangement : Arrangement) {length : Nat} (h : length ≤ maxInput)
    (seed : UInt64) :
    (numbersIn (generate arrangement length seed)).Perm (fromZero length) ∧
    numbersIn (generate .ascending length seed) = fromZero length ∧
    numbersIn (generate .descending length seed) = (fromZero length).reverse ∧
    ∃ draws, exchangeAll? (descent length) (upward length) (.ofSeed seed) =
        some (draws, generate .random length seed) ∧
      draws.map Draw.place = descent length ∧
      ∀ d ∈ draws, d.drawn ≤ d.place ∧ d.place < length := by
  have hmax : maxInput < 2 ^ 31 := by decide
  have hmin : min length maxInput = length := Nat.min_eq_left h
  have hupward := numbersIn_upward (n := length) (by omega)
  refine ⟨?_, ?_, ?_, ?_⟩
  · have hperm := numbersIn_perm (generate_perm arrangement length seed)
    rwa [hmin, hupward] at hperm
  · rw [generate, hmin, hupward]
  · rw [generate, hmin, numbersIn_reverse, hupward]
  · have hfits : length < 2 ^ 64 := by omega
    obtain ⟨draws, hcourse, hplaces, hdrawn⟩ :=
      exchangeAll?_descent hfits (upward length) (size_upward length).ge (.ofSeed seed)
    refine ⟨draws, ?_, hplaces, fun d hd => ⟨hdrawn d hd, ?_⟩⟩
    · rw [hcourse, generate, hmin]
    · refine lt_of_mem_descent ?_
      rw [← hplaces]
      exact List.mem_map_of_mem hd

/-- Four numbers shuffled from a seed. -/
theorem generate_arranges_four :
    4 ≤ maxInput ∧ numbersIn (generate .random 4 42) = [1, 3, 2, 0] ∧
      (numbersIn (generate .random 4 42)).Perm [0, 1, 2, 3] ∧
      ∃ draws, exchangeAll? [3, 2, 1] (upward 4) (.ofSeed 42) = some (draws, #[1, 3, 2, 0]) ∧
        draws.map Draw.place = [3, 2, 1] ∧ ∀ d ∈ draws, d.drawn ≤ d.place ∧ d.place < 4 := by
  have hinput : generate .random 4 42 = #[1, 3, 2, 0] := by decide +kernel
  have hfits : 4 ≤ maxInput := by decide
  obtain ⟨hperm, -, -, draws, hcourse, hplaces, hdrawn⟩ := generate_arranges .random hfits 42
  rw [hinput] at hperm hcourse ⊢
  exact ⟨hfits, rfl, hperm, draws, hcourse, hplaces, hdrawn⟩

end CallBridge.Bench
