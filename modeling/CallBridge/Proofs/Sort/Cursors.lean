import CallBridge.Proofs.Sort.Inquiry
import Mathlib.Data.Nat.PSub
import Mathlib.Logic.Function.Iterate
import Mathlib.Tactic.Ring

/-!
# The sort step by step

The sort as a machine with two cursors `i` and `j` and a stack of segments that are left for later.
It breaks if it is to touch a position outside its segment or to go below zero with a number. A
place of the machine stands for what is left of the decision tree (`Stands`): the cursors are the
ends of the unsettled zone, and what the machine does is what the tree has at its root
(`Stands.deed`). So the machine never breaks and ends as the sort does, after a number of steps that
is bounded by the length of the buffer alone (`sort_safe`).
-/

namespace CallBridge.Sort
open DecisionTree

/-! ### The machine -/

/-- Where a sort stands in a segment: before it, at one of the two scans, or where both have come to
a stop. -/
inductive Point where
  | enter
  | front (i j : Nat)
  | back (i j : Nat)
  | meet (i j : Nat)

/-- Where a sort stands: the segment of `len` positions from `lo` on, and the segments left for
later, the next one first. -/
structure Place where
  lo : Nat
  len : Nat
  point : Point
  later : List (Nat × Nat)

/-- What is done at a place. Positions count from the start of the segment. There is no next place
where a number would fall below zero. -/
inductive Deed where
  | finish
  | pass (next : Option Place)
  | exchange (i j : Nat) (next : Option Place)
  | compare (i j : Nat) (next : Ordering → Option Place)

namespace Place

def move (s : Place) (point : Point) : Place := { s with point }

/-- Go on with the smaller side of the pivot and leave the other one for later. -/
def divide (s : Place) (pivot : Nat) : Option Place :=
  (s.len.psub (pivot + 1)).map fun above =>
    if pivot < above then ⟨s.lo, pivot, .enter, (s.lo + pivot + 1, above) :: s.later⟩
    else ⟨s.lo + pivot + 1, above, .enter, (s.lo, pivot) :: s.later⟩

def deed (s : Place) : Deed :=
  match s.point with
  | .enter =>
    if 1 < s.len then
      .exchange 0 (s.len / 2) ((s.len.psub 1).map fun j => s.move (.front 1 j))
    else
      match s.later with
      | [] => .finish
      | (lo, len) :: later => .pass (some ⟨lo, len, .enter, later⟩)
  | .front i j =>
    if i ≤ j then
      .compare i 0 fun
        | .lt => some (s.move (.front (i + 1) j))
        | _ => some (s.move (.back i j))
    else .pass (some (s.move (.back i j)))
  | .back i j =>
    if i < j then
      .compare j 0 fun
        | .gt => (j.psub 1).map fun j => s.move (.back i j)
        | _ => some (s.move (.meet i j))
    else .pass (some (s.move (.meet i j)))
  | .meet i j =>
    if i < j then .exchange i j ((j.psub 1).map fun j => s.move (.front (i + 1) j))
    else
      match i.psub 1 with
      | some pivot => .exchange 0 pivot (s.divide pivot)
      | none => .pass none

end Place

/-- How far a sort has come. -/
inductive Progress (σ ε α : Type) where
  | underway (place : Place) (buffer : Array α) (memory : σ)
  | ended (walk : Walk σ ε α Unit)
  | broken

namespace Progress
variable {σ ε α : Type}

def start (buffer : Array α) (memory : σ) : Progress σ ε α :=
  .underway ⟨0, buffer.size, .enter, []⟩ buffer memory

def resume (next : Option Place) (buffer : Array α) (memory : σ) : Progress σ ε α :=
  match next with
  | some place => .underway place buffer memory
  | none => .broken

def step (ask : Comparer σ ε α) : Progress σ ε α → Progress σ ε α
  | underway place buffer memory =>
    match place.deed with
    | .finish => .ended ⟨.ok (), buffer, memory⟩
    | .pass next => resume next buffer memory
    | .exchange i j next =>
      if i < place.len ∧ j < place.len then
        resume next (buffer.swapIfInBounds (place.lo + i) (place.lo + j)) memory
      else .broken
    | .compare i j next =>
      if i < place.len ∧ j < place.len then
        match ask (place.lo + i) (place.lo + j) buffer memory with
        | (.ok answer, memory) => resume (next (sign answer)) buffer memory
        | (.error e, memory) => .ended ⟨.error e, buffer, memory⟩
      else .broken
  | p => p

/-- The question that is asked in the next step, if it asks one. -/
def call? (ask : Comparer σ ε α) : Progress σ ε α → Option (Inquiry ε α)
  | underway place buffer memory =>
    match place.deed with
    | .compare i j _ =>
      let left := place.lo + i
      let right := place.lo + j
      some ⟨left, right, buffer, (ask left right buffer memory).1⟩
    | _ => none
  | _ => none

end Progress

/-! ### Places and trees -/

/-- The sorts of some segments, one after the other. -/
def segments : List (Nat × Nat) → DecisionTree Unit
  | [] => .done ()
  | (lo, len) :: later => (segment lo len).bind fun _ => segments later

/-- The sides of a pivot, the smaller one first. -/
def sides (lo len pivot : Nat) : List (Nat × Nat) :=
  let above := len - 1 - pivot
  if pivot < above then [(lo, pivot), (lo + pivot + 1, above)]
  else [(lo + pivot + 1, above), (lo, pivot)]

theorem bind_assoc {ρ τ υ : Type} (t : DecisionTree ρ) (f : ρ → DecisionTree τ)
    (g : τ → DecisionTree υ) : (t.bind f).bind g = t.bind fun r => (f r).bind g := by
  induction t with
  | done r => rfl
  | exchange i j next ih => exact congrArg (DecisionTree.exchange i j) ih
  | compare left right next ih => exact congrArg (DecisionTree.compare left right) (funext ih)

theorem bind_done {ρ : Type} (t : DecisionTree ρ) : t.bind .done = t := by
  induction t with
  | done r => rfl
  | exchange i j next ih => exact congrArg (DecisionTree.exchange i j) ih
  | compare left right next ih => exact congrArg (DecisionTree.compare left right) (funext ih)

theorem segments_of_le_one {lo len : Nat} (h : len ≤ 1) (later : List (Nat × Nat)) :
    segments ((lo, len) :: later) = segments later := by
  rw [segments, segment_of_le_one h, done_bind]

theorem segments_of_one_lt {lo len : Nat} (h : 1 < len) (later : List (Nat × Nat)) :
    segments ((lo, len) :: later) =
      (split lo len h).bind fun k => segments (sides lo len k ++ later) := by
  rw [segments, segment, dif_pos h, bind_assoc]
  congr 1
  funext k
  unfold sides
  dsimp only
  split <;> exact bind_assoc ..

/-- The tree that is left at a place. The cursors of the scans are the ends of the unsettled zone;
where both have come to a stop, the zone is settled or has two ends to exchange. -/
inductive Stands : Place → DecisionTree Unit → Prop
  | enter (lo len : Nat) (later : List (Nat × Nat)) :
    Stands ⟨lo, len, .enter, later⟩ (segments ((lo, len) :: later))
  | front {lo len i j : Nat} {later : List (Nat × Nat)} (p r : Nat) (h : p + r < len)
      (hi : i = p + 1) (hj : j = p + r) :
    Stands ⟨lo, len, .front i j, later⟩
      ((fromFront lo len p r h).bind fun k => segments (sides lo len k ++ later))
  | back {lo len i j : Nat} {later : List (Nat × Nat)} (p r : Nat) (h : p + r < len)
      (hi : i = p + 1) (hj : j = p + r) :
    Stands ⟨lo, len, .back i j, later⟩
      ((fromBack lo len p r h).bind fun k => segments (sides lo len k ++ later))
  | settled {lo len i j : Nat} {later : List (Nat × Nat)} (p r : Nat) (h : p + r < len)
      (hr : r ≤ 1) (hi : i = p + 1) (hj : j = p + r) :
    Stands ⟨lo, len, .meet i j, later⟩
      (.exchange lo (lo + p) (segments (sides lo len p ++ later)))
  | ends {lo len i j : Nat} {later : List (Nat × Nat)} (p r : Nat) (h : p + (r + 2) < len)
      (hi : i = p + 1) (hj : j = p + (r + 2)) :
    Stands ⟨lo, len, .meet i j, later⟩
      (.exchange (lo + i) (lo + j)
        ((fromFront lo len (p + 1) r (by omega)).bind fun k => segments (sides lo len k ++ later)))

/-! ### Steps that are left -/

/-- The most steps that a segment takes. -/
def steps (len : Nat) : Nat := 2 * (len * len) + 2 * len + 1

/-- The most steps that the two sides of a pivot take. -/
def sideSteps (len : Nat) : Nat := 2 * (len * len) + 2 - 2 * len

/-- The most steps that are left at a place. -/
def Place.left (s : Place) : Nat :=
  (match s.point with
    | .enter => steps s.len
    | .front i j => 3 * (j + 1 - i) + 3 + sideSteps s.len
    | .back i j => 3 * (j + 1 - i) + 2 + sideSteps s.len
    | .meet i j => 3 * (j + 1 - i) + 1 + sideSteps s.len) +
  (s.later.map fun p => steps p.2).sum

theorem steps_sides {len pivot : Nat} (h : pivot < len) :
    steps pivot + steps (len - 1 - pivot) ≤ sideSteps len := by
  obtain ⟨above, rfl⟩ : ∃ above, len = pivot + above + 1 := ⟨len - 1 - pivot, by omega⟩
  have hlen : pivot + above + 1 - 1 - pivot = above := by omega
  have hsquare : (pivot + above + 1) * (pivot + above + 1) =
      pivot * pivot + above * above + 2 * (pivot * above) + 2 * pivot + 2 * above + 1 := by ring
  rw [hlen]
  unfold steps sideSteps
  omega

theorem sideSteps_lt {len : Nat} (h : 1 < len) : 3 * len + sideSteps len < steps len := by
  have hsquare : len ≤ len * len := Nat.le_mul_self len
  unfold steps sideSteps
  omega

/-! ### What is done at a place -/

/-- All segments of a place lie within the first `n` positions. -/
def Place.Fits (n : Nat) (s : Place) : Prop := ∀ p ∈ (s.lo, s.len) :: s.later, p.1 + p.2 ≤ n

/-- One place after another: fewer steps are left, and all segments lie where they lay. -/
structure Leads (s next : Place) : Prop where
  left : next.left < s.left
  fits : ∀ n, s.Fits n → next.Fits n

/-- What is done at a place is what a tree has at its root, within the segment. -/
inductive Does (s : Place) : Deed → DecisionTree Unit → Prop
  | finish : Does s .finish (.done ())
  | pass {next : Place} {t : DecisionTree Unit} (leads : Leads s next) (stands : Stands next t) :
    Does s (.pass (some next)) t
  | exchange {i j : Nat} {next : Place} {t : DecisionTree Unit} (hi : i < s.len) (hj : j < s.len)
      (leads : Leads s next) (stands : Stands next t) :
    Does s (.exchange i j (some next)) (.exchange (s.lo + i) (s.lo + j) t)
  | compare {i : Nat} {next : Ordering → Option Place} {f : Ordering → DecisionTree Unit}
      (hi : 0 < i) (hlen : i < s.len)
      (leads : ∀ o, ∃ place, next o = some place ∧ Leads s place ∧ Stands place (f o)) :
    Does s (.compare i 0 next) (.compare (s.lo + i) s.lo f)

theorem Leads.move {lo len : Nat} {later : List (Nat × Nat)} {point point' : Point}
    (h : Place.left ⟨lo, len, point', later⟩ < Place.left ⟨lo, len, point, later⟩) :
    Leads ⟨lo, len, point, later⟩ ⟨lo, len, point', later⟩ := ⟨h, fun _ hn => hn⟩

section
variable {lo len i j p r : Nat} {later : List (Nat × Nat)}

theorem does_enter :
    Does ⟨lo, len, .enter, later⟩ (Place.deed ⟨lo, len, .enter, later⟩)
      (segments ((lo, len) :: later)) := by
  simp only [Place.deed]
  split
  · next h =>
    rw [segments_of_one_lt h, Nat.psub_eq_sub (by omega)]
    have hfirst : 0 < len := by omega
    have hmiddle : len / 2 < len := by omega
    have hzone : 0 + (len - 1) < len := by omega
    refine .exchange hfirst hmiddle (.move ?_) (.front 0 (len - 1) hzone rfl (by omega))
    have := sideSteps_lt h
    simp only [Place.left]
    omega
  · next h =>
    rw [segments_of_le_one (by omega)]
    cases later with
    | nil => exact .finish
    | cons p later =>
      refine .pass ⟨?_, fun n hn q hq => hn q (List.mem_cons_of_mem _ hq)⟩ (.enter ..)
      have : 1 ≤ steps len := Nat.le_add_left ..
      simp only [Place.left, List.map_cons, List.sum_cons]
      omega

theorem does_front (h : p + r < len) (hi : i = p + 1) (hj : j = p + r) :
    Does ⟨lo, len, .front i j, later⟩ (Place.deed ⟨lo, len, .front i j, later⟩)
      ((fromFront lo len p r h).bind fun k => segments (sides lo len k ++ later)) := by
  subst hi hj
  cases r with
  | zero =>
    -- An empty zone is settled by either scan; the machine still looks at the other one.
    have hstop : ¬ p + 1 ≤ p + 0 := by omega
    have htree : fromFront lo len p 0 h = fromBack lo len p 0 h := by rw [fromFront, fromBack]
    simp only [Place.deed, if_neg hstop, htree]
    refine .pass (.move ?_) (.back p 0 h rfl rfl)
    simp only [Place.left]
    omega
  | succ r =>
    have hgo : p + 1 ≤ p + (r + 1) := by omega
    have hlen : p + 1 < len := by omega
    have hzone : p + 1 + r < len := by omega
    simp only [Place.deed, if_pos hgo]
    rw [fromFront]
    refine .compare (Nat.succ_pos p) hlen fun o => ?_
    cases o with
    | lt =>
      refine ⟨_, rfl, .move ?_, .front (p + 1) r hzone rfl (by omega)⟩
      simp only [Place.left]
      omega
    | eq =>
      refine ⟨_, rfl, .move ?_, .back p (r + 1) h rfl rfl⟩
      simp only [Place.left]
      omega
    | gt =>
      refine ⟨_, rfl, .move ?_, .back p (r + 1) h rfl rfl⟩
      simp only [Place.left]
      omega

theorem does_back (h : p + r < len) (hi : i = p + 1) (hj : j = p + r) :
    Does ⟨lo, len, .back i j, later⟩ (Place.deed ⟨lo, len, .back i j, later⟩)
      ((fromBack lo len p r h).bind fun k => segments (sides lo len k ++ later)) := by
  subst hi hj
  rcases Nat.lt_or_ge r 2 with hr | hr
  · have hstop : ¬ p + 1 < p + r := by omega
    have htree : fromBack lo len p r h = .exchange lo (lo + p) (.done ⟨p, by omega⟩) := by
      obtain rfl | rfl : r = 0 ∨ r = 1 := by omega
      all_goals rw [fromBack]
    simp only [Place.deed, if_neg hstop, htree]
    refine .pass (.move ?_) (.settled p r h (by omega) rfl rfl)
    simp only [Place.left]
    omega
  · obtain ⟨r, rfl⟩ : ∃ r', r = r' + 2 := ⟨r - 2, by omega⟩
    have hgo : p + 1 < p + (r + 2) := by omega
    have hlast : 0 < p + (r + 2) := by omega
    have hzone : p + (r + 1) < len := by omega
    have hpos : lo + p + r + 2 = lo + (p + (r + 2)) := by omega
    simp only [Place.deed, if_pos hgo]
    rw [fromBack, hpos]
    refine .compare hlast h fun o => ?_
    cases o with
    | gt =>
      refine ⟨_, by rw [Nat.psub_eq_sub (by omega)]; rfl, .move ?_,
        .back p (r + 1) hzone rfl (by omega)⟩
      simp only [Place.left]
      omega
    | eq =>
      refine ⟨_, rfl, .move ?_, .ends p r h rfl rfl⟩
      simp only [Place.left]
      omega
    | lt =>
      refine ⟨_, rfl, .move ?_, .ends p r h rfl rfl⟩
      simp only [Place.left]
      omega

theorem does_ends (h : p + (r + 2) < len) (hi : i = p + 1) (hj : j = p + (r + 2)) :
    Does ⟨lo, len, .meet i j, later⟩ (Place.deed ⟨lo, len, .meet i j, later⟩)
      (.exchange (lo + i) (lo + j)
        ((fromFront lo len (p + 1) r (by omega)).bind fun k =>
          segments (sides lo len k ++ later))) := by
  have hgo : i < j := by omega
  have hlen : i < len ∧ j < len := by omega
  have hzone : p + 1 + r < len := by omega
  simp only [Place.deed, if_pos hgo]
  rw [Nat.psub_eq_sub (by omega)]
  refine .exchange hlen.1 hlen.2 (.move ?_) (.front (p + 1) r hzone (by omega) (by omega))
  simp only [Place.left]
  omega

theorem does_settled (h : p + r < len) (hr : r ≤ 1) (hi : i = p + 1) (hj : j = p + r) :
    Does ⟨lo, len, .meet i j, later⟩ (Place.deed ⟨lo, len, .meet i j, later⟩)
      (.exchange lo (lo + p) (segments (sides lo len p ++ later))) := by
  have hstop : ¬ i < j := by omega
  have hfirst : 0 < len := by omega
  have hpivot : p < len := by omega
  have habove : len - (p + 1) = len - 1 - p := by omega
  have hsteps := steps_sides hpivot
  simp only [Place.deed, if_neg hstop]
  rw [hi, Nat.psub_eq_sub (Nat.le_add_left 1 p), Nat.add_sub_cancel]
  simp only [Place.divide]
  rw [Nat.psub_eq_sub (by omega), habove, Option.map_some]
  unfold sides
  dsimp only
  split
  · refine .exchange hfirst hpivot ⟨?_, fun n hn => ?_⟩ (.enter ..)
    · simp only [Place.left, List.map_cons, List.sum_cons]
      omega
    · simp only [Place.Fits, List.forall_mem_cons] at hn ⊢
      exact ⟨by omega, by omega, hn.2⟩
  · refine .exchange hfirst hpivot ⟨?_, fun n hn => ?_⟩ (.enter ..)
    · simp only [Place.left, List.map_cons, List.sum_cons]
      omega
    · simp only [Place.Fits, List.forall_mem_cons] at hn ⊢
      exact ⟨by omega, by omega, hn.2⟩

end

theorem Stands.deed {s : Place} {t : DecisionTree Unit} (h : Stands s t) : Does s s.deed t := by
  cases h with
  | enter lo len later => exact does_enter
  | front p r h hi hj => exact does_front h hi hj
  | back p r h hi hj => exact does_back h hi hj
  | settled p r h hr hi hj => exact does_settled h hr hi hj
  | ends p r h hi hj => exact does_ends h hi hj

/-! ### Safety -/

/-- The cursors of the scans: the one in front comes at most right behind the segment, the one at
the back stays in it. -/
def Point.Inside (len : Nat) : Point → Prop
  | .enter => True
  | .front i j | .back i j | .meet i j => 1 ≤ i ∧ i ≤ len ∧ j < len

/-- Only positions of the segment are touched, only later ones are compared, and only with the
first; and there is a next place. -/
def Deed.Inside (len : Nat) : Deed → Prop
  | .finish => True
  | .pass next => next.isSome
  | .exchange i j next => i < len ∧ j < len ∧ next.isSome
  | .compare i j next => j = 0 ∧ 0 < i ∧ i < len ∧ ∀ o, (next o).isSome

namespace Progress
variable {σ ε α : Type}

/-- Nothing is broken, and all elements of the buffer are there. -/
def Safe (buffer : Array α) : Progress σ ε α → Prop
  | underway place b _ =>
    b.Perm buffer ∧ place.lo + place.len ≤ buffer.size ∧ place.point.Inside place.len ∧
      place.deed.Inside place.len
  | ended walk => walk.buffer.Perm buffer
  | broken => False

/-- A sort that is underway stands somewhere, with its segments within the buffer. -/
def Sound (buffer : Array α) : Progress σ ε α → Prop
  | underway place b _ => b.Perm buffer ∧ place.Fits buffer.size ∧ ∃ t, Stands place t
  | ended walk => walk.buffer.Perm buffer
  | broken => False

end Progress

section
variable {σ ε α : Type} {ask : Comparer σ ε α} {s : Place} {t : DecisionTree Unit}
  {buffer : Array α} {memory : σ}

theorem Stands.inside (h : Stands s t) : s.point.Inside s.len := by
  cases h with
  | enter lo len later => trivial
  | front p r h hi hj => exact ⟨by omega, by dsimp only; omega, by dsimp only; omega⟩
  | back p r h hi hj => exact ⟨by omega, by dsimp only; omega, by dsimp only; omega⟩
  | settled p r h hr hi hj => exact ⟨by omega, by dsimp only; omega, by dsimp only; omega⟩
  | ends p r h hi hj => exact ⟨by omega, by dsimp only; omega, by dsimp only; omega⟩

theorem Does.inside {d : Deed} (h : Does s d t) : d.Inside s.len := by
  cases h with
  | finish => trivial
  | pass leads stands => rfl
  | exchange hi hj leads stands => exact ⟨hi, hj, rfl⟩
  | compare hi hlen leads =>
    refine ⟨rfl, hi, hlen, fun o => ?_⟩
    obtain ⟨place, hplace, -⟩ := leads o
    rw [hplace]
    rfl

theorem Progress.Sound.safe {progress : Progress σ ε α} (h : progress.Sound buffer) :
    progress.Safe buffer := by
  cases progress with
  | underway place b m =>
    obtain ⟨hperm, hfits, t, ht⟩ := h
    exact ⟨hperm, hfits _ (List.mem_cons_self ..), ht.inside, ht.deed.inside⟩
  | ended walk => exact h
  | broken => exact h

/-- One step: the sort ends as the tree does, or goes on at a place that stands for the rest. -/
theorem Stands.step (h : Stands s t) (ask : Comparer σ ε α) (buffer : Array α) (memory : σ) :
    let now : Progress σ ε α := .underway s buffer memory
    let call := (now.call? ask).toList
    (now.step ask = .ended (t.follow ask buffer memory) ∧
      t.inquiries ask buffer memory = call) ∨
    ∃ s' t' buffer' memory', now.step ask = .underway s' buffer' memory' ∧
      Leads s s' ∧ Stands s' t' ∧ buffer'.Perm buffer ∧
      t'.follow ask buffer' memory' = t.follow ask buffer memory ∧
      t.inquiries ask buffer memory = call ++ t'.inquiries ask buffer' memory' := by
  have hdoes := h.deed
  simp only [Progress.step, Progress.call?]
  generalize s.deed = deed at hdoes
  cases hdoes with
  | finish => exact .inl ⟨rfl, rfl⟩
  | pass leads stands =>
    exact .inr ⟨_, t, buffer, memory, rfl, leads, stands, .refl _, rfl, rfl⟩
  | exchange hi hj leads stands =>
    exact .inr ⟨_, _, _, memory, if_pos ⟨hi, hj⟩, leads, stands, swapIfInBounds_perm .., rfl, rfl⟩
  | compare hi hlen leads =>
    dsimp only
    rw [if_pos ⟨hlen, by omega⟩, inquiries_compare, Nat.add_zero]
    simp only [follow]
    rcases ask _ _ buffer memory with ⟨e | answer, memory'⟩
    · exact .inl ⟨rfl, rfl⟩
    · obtain ⟨s', hs', hleads, hstands⟩ := leads (sign answer)
      exact .inr ⟨s', _, buffer, memory', by simp only [hs', Progress.resume], hleads, hstands,
        .refl _, rfl, rfl⟩

theorem Progress.Sound.step {progress : Progress σ ε α} (h : progress.Sound buffer)
    (ask : Comparer σ ε α) : (progress.step ask).Sound buffer := by
  cases progress with
  | underway place b m =>
    obtain ⟨hperm, hfits, t, ht⟩ := h
    rcases ht.step ask b m with ⟨hstep, -⟩ | ⟨s', t', b', m', hstep, hleads, ht', hb', -, -⟩
    · rw [hstep]
      exact (follow_perm ..).trans hperm
    · rw [hstep]
      exact ⟨hb'.trans hperm, hleads.fits _ hfits, t', ht'⟩
  | ended walk => exact h
  | broken => exact h

theorem Progress.Sound.iterate {progress : Progress σ ε α} (h : progress.Sound buffer)
    (ask : Comparer σ ε α) (m : Nat) : ((Progress.step ask)^[m] progress).Sound buffer := by
  induction m generalizing progress with
  | zero => exact h
  | succ m ih => exact ih (h.step ask)

/-- From a place that stands for a tree the sort comes to the tree's end, in no more steps than are
left, and makes the tree's calls on the way. -/
theorem Stands.run (h : Stands s t) (ask : Comparer σ ε α) (buffer : Array α) (memory : σ) :
    ∃ m ≤ s.left, (Progress.step ask)^[m] (.underway s buffer memory) =
        .ended (t.follow ask buffer memory) ∧
      t.inquiries ask buffer memory = (List.range m).filterMap fun k =>
        ((Progress.step ask)^[k] (.underway s buffer memory)).call? ask := by
  -- The tree does not get smaller when a scan hands over to the other, so the induction is on the
  -- steps left at the place.
  induction hleft : s.left using Nat.strongRecOn generalizing s t buffer memory with
  | ind left ih =>
    have hpos : 0 < left := by
      have : ∀ len, 0 < steps len := fun len => Nat.succ_pos _
      subst hleft
      unfold Place.left
      split <;> simp [this]
    rcases h.step ask buffer memory with
      ⟨hstep, hcalls⟩ | ⟨s', t', buffer', memory', hstep, hleads, ht', -, hfollow, hcalls⟩
    · refine ⟨1, hpos, hstep, ?_⟩
      rw [hcalls]
      cases hcall : (Progress.underway s buffer memory).call? ask <;> simp [hcall]
    · obtain ⟨m, hm, hend, hrest⟩ := ih s'.left (hleft ▸ hleads.left) ht' buffer' memory' rfl
      have hlt := hleads.left
      refine ⟨m + 1, by omega, ?_, ?_⟩
      · rw [Function.iterate_succ_apply, hstep, hend, hfollow]
      · rw [hcalls, hrest, List.range_succ_eq_map, List.filterMap_cons, List.filterMap_map]
        simp only [Function.comp_def, Function.iterate_zero, id_eq, Nat.succ_eq_add_one,
          Function.iterate_succ_apply, hstep]
        cases (Progress.underway s buffer memory).call? ask <;> rfl

end

/-- Whatever the comparer does, the sort never touches a position outside its segment nor goes below
zero with a number, asks about a later position and the first one of a segment each time, and keeps
all elements at every moment. It ends, after a number of steps that the comparer has no part in. -/
theorem sort_safe {σ ε : Type} (ask : Comparer σ ε Int32) (buffer : Array Int32) (memory : σ) :
    let run (m : Nat) := (Progress.step ask)^[m] (.start buffer memory)
    (∀ m, (run m).Safe buffer) ∧
    (∃ m ≤ steps buffer.size, run m = .ended (byPosition ask buffer memory) ∧
      calls ask buffer memory = (List.range m).filterMap fun k => (run k).call? ask) ∧
    (byPosition ask buffer memory).buffer.Perm buffer ∧
    (buffer.size < 2 → calls ask buffer memory = []) := by
  intro run
  have htree : segments [(0, buffer.size)] = segment 0 buffer.size := bind_done _
  have hstart : Stands ⟨0, buffer.size, .enter, []⟩ (segment 0 buffer.size) := htree ▸ .enter ..
  have hsound : (Progress.start buffer memory : Progress σ ε Int32).Sound buffer := by
    refine ⟨.refl _, fun p hp => ?_, _, hstart⟩
    obtain rfl := List.mem_singleton.1 hp
    exact Nat.le_of_eq (Nat.zero_add _)
  refine ⟨fun m => (hsound.iterate ask m).safe, ?_, byPosition_perm, fun h => ?_⟩
  · exact hstart.run ask buffer memory
  · rw [calls, segment_of_le_one (by omega)]
    rfl

end CallBridge.Sort
