import CallBridge.Proofs.Sort.Cursors
import CallBridge.Proofs.Sort.FewestCalls

/-!
# How deep a sort nests

A sort is a loop: the smaller side of each split is sorted by a sort nested in it, and the loop goes
on with the larger side. `limited` is that sort with an eye on its nested sorts, which gives up at
the first one that is not allowed. A nested sort has fewer than half of the elements that the one
around it is at, so each level of nesting halves what can be left to a sort (`Allowing`), however
badly the comparer splits the segments and however long the loops go on. Thus a sort of `n` elements
that is not to nest deeper than the binary logarithm of `n + 1` never gives up
(`nests_logarithmically`).
-/

namespace CallBridge.Sort
open DecisionTree

/-! ### Giving up -/

/-- A sort nested in another one: how deep it stands below the outermost one, how many elements the
other one is at, and how many it has itself. -/
structure Nested where
  depth : Nat
  outer : Nat
  inner : Nat

/-- Do a nested sort, if it is allowed, and then the rest, unless the nested sort gives up. -/
def nest (allowed : Bool) (nested rest : DecisionTree (Option Unit)) : DecisionTree (Option Unit) :=
  if allowed then
    nested.bind fun
      | some () => rest
      | none => .done none
  else .done none

/-- The sort of a segment at some depth that gives up, without a result, as soon as a sort is to be
nested in it that is not allowed. -/
def limited (allows : Nested → Bool) (depth lo len : Nat) : DecisionTree (Option Unit) :=
  if h : 1 < len then
    (split lo len h).bind fun pivot =>
      let above := len - 1 - pivot
      if pivot < above then
        nest (allows ⟨depth + 1, len, pivot⟩) (limited allows (depth + 1) lo pivot)
          (limited allows depth (lo + pivot + 1) above)
      else
        nest (allows ⟨depth + 1, len, above⟩) (limited allows (depth + 1) (lo + pivot + 1) above)
          (limited allows depth lo pivot)
  else
    .done (some ())
termination_by len
decreasing_by all_goals omega

/-- A sort that does not give up. -/
def succeeding (t : DecisionTree Unit) : DecisionTree (Option Unit) :=
  t.bind fun _ => .done (some ())

theorem nest_succeeding (t u : DecisionTree Unit) :
    nest true (succeeding t) (succeeding u) = succeeding (t.bind fun _ => u) := by
  rw [nest, if_pos rfl, succeeding, succeeding, succeeding, bind_assoc, bind_assoc]
  rfl

section
variable {σ ε : Type} (ask : Comparer σ ε Int32)

theorem follow_succeeding (t : DecisionTree Unit) (buffer : Array Int32) (memory : σ) :
    (succeeding t).follow ask buffer memory =
      let walk := t.follow ask buffer memory
      ⟨walk.result.map some, walk.buffer, walk.memory⟩ := by
  rw [succeeding, follow_bind]
  rcases t.follow ask buffer memory with ⟨_ | _, buffer, memory⟩ <;> rfl

theorem inquiries_succeeding (t : DecisionTree Unit) (buffer : Array Int32) (memory : σ) :
    (succeeding t).inquiries ask buffer memory = t.inquiries ask buffer memory := by
  induction t generalizing buffer memory with
  | done r => rfl
  | exchange i j next ih => exact ih ..
  | compare left right next ih =>
    rw [succeeding, DecisionTree.bind, inquiries_compare, inquiries_compare]
    rcases ask left right buffer memory with ⟨e | answer, memory⟩
    · rfl
    · exact congrArg (List.cons _) (ih ..)

end

variable {allows : Nested → Bool} {depth lo len n : Nat}

theorem limited_of_le_one (h : len ≤ 1) : limited allows depth lo len = .done (some ()) := by
  rw [limited, dif_neg (by omega)]

/-! ### Halves -/

/-- All nested sorts are allowed that have fewer than half of the elements of the one around them
and for which there is room at their depth in a sort of `n` elements. -/
def Allowing (n : Nat) (allows : Nested → Bool) : Prop :=
  ∀ depth outer inner, 2 * inner < outer → (inner + 1) * 2 ^ depth ≤ n + 1 →
    allows ⟨depth, outer, inner⟩ = true

theorem limited_eq (h : Allowing n allows) (hlen : (len + 1) * 2 ^ depth ≤ n + 1) :
    limited allows depth lo len = succeeding (segment lo len) := by
  induction len using Nat.strongRecOn generalizing lo depth with
  | ind len ih =>
    by_cases hone : 1 < len
    · -- the smaller side has room for one more level, the larger one for those that there are
      have hsmall : ∀ side, 2 * side < len → (side + 1) * 2 ^ (depth + 1) ≤ n + 1 := by
        intro side hside
        calc (side + 1) * 2 ^ (depth + 1) = (2 * side + 2) * 2 ^ depth := by ring
          _ ≤ (len + 1) * 2 ^ depth := Nat.mul_le_mul_right _ (by omega)
          _ ≤ n + 1 := hlen
      have hlarge : ∀ side, side < len → (side + 1) * 2 ^ depth ≤ n + 1 := fun side hside =>
        (Nat.mul_le_mul_right _ (by omega)).trans hlen
      have hnested : ∀ side lo' rest, 2 * side < len → rest < len →
          ∀ lo'', nest (allows ⟨depth + 1, len, side⟩) (limited allows (depth + 1) lo' side)
            (limited allows depth lo'' rest) =
          succeeding ((segment lo' side).bind fun _ => segment lo'' rest) := by
        intro side lo' rest hside hrest lo''
        rw [h _ _ _ hside (hsmall side hside), ih side (by omega) (hsmall side hside),
          ih rest hrest (hlarge rest hrest), nest_succeeding]
      rw [limited, segment, dif_pos hone, dif_pos hone, succeeding, bind_assoc]
      congr 1
      funext pivot
      have hpivot := pivot.isLt
      dsimp only
      split
      · exact hnested _ _ _ (by omega) (by omega) _
      · exact hnested _ _ _ (by omega) hpivot _
    · rw [limited_of_le_one (by omega), segment_of_le_one (by omega)]
      rfl

/-! ### A limit of depth -/

/-- Sorts are allowed to nest so deep. -/
def shallow (limit : Nat) (nested : Nested) : Bool := nested.depth ≤ limit

/-- Sorts are allowed that have at most half of the elements of the one they are nested in. -/
def halving (nested : Nested) : Bool := 2 * nested.inner ≤ nested.outer

theorem allowing_shallow (n : Nat) : Allowing n (shallow (Nat.log 2 (n + 1))) := by
  intro depth outer inner _ hroom
  have hpow : 2 ^ depth ≤ n + 1 := (Nat.le_mul_of_pos_left _ (Nat.succ_pos inner)).trans hroom
  exact decide_eq_true (Nat.le_log_of_pow_le (by decide) hpow)

theorem allowing_halving (n : Nat) : Allowing n halving :=
  fun _ _ _ hside _ => decide_eq_true (Nat.le_of_lt hside)

/-! ### A limit that is reached -/

section
variable {σ ε ρ τ : Type} {ask : Comparer σ ε Int32} {size limit : Nat}

/-- The comparer that finds all elements alike. -/
def undecided : Comparer σ ε Int32 := fun _ _ _ memory => (.ok 0, memory)

/-- Whatever stands in a buffer of this size, the walk ends with `r`. -/
def Yields (ask : Comparer σ ε Int32) (size : Nat) (t : DecisionTree ρ) (r : ρ) : Prop :=
  ∀ buffer memory, buffer.size = size → (t.follow ask buffer memory).result = .ok r

theorem yields_done (r : ρ) : Yields ask size (.done r) r := fun _ _ _ => rfl

theorem Yields.bind {t : DecisionTree ρ} {f : ρ → DecisionTree τ} {r : ρ} {r' : τ}
    (h : Yields ask size t r) (h' : Yields ask size (f r) r') : Yields ask size (t.bind f) r' := by
  intro buffer memory hsize
  have hr := h buffer memory hsize
  have hperm : (t.follow ask buffer memory).buffer.Perm buffer := follow_perm ..
  rw [follow_bind]
  generalize t.follow ask buffer memory = walk at hr hperm
  obtain ⟨result, buffer', memory'⟩ := walk
  obtain rfl : result = .ok r := hr
  exact h' buffer' memory' (hperm.size_eq.trans hsize)

theorem yields_split (hone : 1 < len) (hlen : lo + len ≤ size) :
    Yields (undecided : Comparer σ ε Int32) size (split lo len hone) ⟨(len - 1) / 2, by omega⟩ := by
  intro buffer memory hsize
  have hin : (split lo len hone).Within 0 buffer.size :=
    (within_split lo len hone).mono (by omega) (by omega)
  have sure : (undecided : Comparer σ ε Int32).Sure := fun _ _ _ _ _ _ => ⟨0, rfl⟩
  obtain ⟨k, hk⟩ := exists_result sure memory hin
  obtain ⟨π, L, hcourse, -, hL⟩ := exists_course hin hk
  have hzero : ∀ v ∈ L, v.answer = 0 := by
    intro v hv
    obtain ⟨reply, hreply, hsettles⟩ := exists_settles hL hv
    obtain ⟨before, after, hask⟩ := exists_of_mem_replies hreply
    exact hsettles.answer.symm.trans (Except.ok.inj (congrArg Prod.fst hask)).symm
  rw [hk]
  exact congrArg Except.ok (Fin.ext (middle_of_undecided hcourse hzero))

theorem Yields.nest {nested rest : DecisionTree (Option Unit)} {r r' : Option Unit}
    (h : Yields ask size nested r) (h' : Yields ask size rest r') :
    Yields ask size (nest true nested rest) (r.bind fun _ => r') := by
  rw [Sort.nest, if_pos rfl]
  cases r with
  | none => exact h.bind (yields_done none)
  | some _ => exact h.bind h'

/-- What comes of a sort of elements that are all alike, if sorts may be nested in it `levels`
deep. -/
def resultAlike (levels len : Nat) : Option Unit :=
  if 3 * 2 ^ levels ≤ len + 1 then none else some ()

theorem resultAlike_of_le_one (levels : Nat) (h : len ≤ 1) : resultAlike levels len = some () := by
  have hpow : 0 < 2 ^ levels := Nat.two_pow_pos levels
  rw [resultAlike, if_neg (by omega)]

theorem resultAlike_zero (h : 1 < len) : resultAlike 0 len = none := by
  rw [resultAlike, if_pos (by omega)]

/-- Both sides have half of the elements, and the nested sort has one level less. -/
theorem resultAlike_succ (levels len : Nat) :
    resultAlike (levels + 1) len =
      (resultAlike levels ((len - 1) / 2)).bind fun _ => resultAlike (levels + 1) (len / 2) := by
  have hpow : 0 < 2 ^ levels := Nat.two_pow_pos levels
  unfold resultAlike
  rw [Nat.pow_succ]
  by_cases hdeep : 3 * 2 ^ levels ≤ (len - 1) / 2 + 1
  · rw [if_pos hdeep, if_pos (by omega)]
    rfl
  · rw [if_neg hdeep, if_neg (by omega), Option.bind_some, if_neg (by omega)]

theorem yields_limited (levels : Nat) (hlimit : depth + levels = limit) (hlen : lo + len ≤ size) :
    Yields (undecided : Comparer σ ε Int32) size (limited (shallow limit) depth lo len)
      (resultAlike levels len) := by
  induction len using Nat.strongRecOn generalizing lo depth levels with
  | ind len ih =>
    by_cases hone : 1 < len
    · have hnest : ∀ lo' lo'', lo' + (len - 1) / 2 ≤ size → lo'' + len / 2 ≤ size →
          Yields (undecided : Comparer σ ε Int32) size
            (nest (shallow limit ⟨depth + 1, len, (len - 1) / 2⟩)
              (limited (shallow limit) (depth + 1) lo' ((len - 1) / 2))
              (limited (shallow limit) depth lo'' (len / 2)))
            (resultAlike levels len) := by
        intro lo' lo'' hlo' hlo''
        cases levels with
        | zero =>
          have hdeep : shallow limit ⟨depth + 1, len, (len - 1) / 2⟩ = false :=
            decide_eq_false (by dsimp only; omega)
          rw [hdeep, resultAlike_zero hone]
          exact yields_done none
        | succ levels =>
          have hallowed : shallow limit ⟨depth + 1, len, (len - 1) / 2⟩ = true :=
            decide_eq_true (by dsimp only; omega)
          have hlevel : depth + 1 + levels = limit := by omega
          rw [hallowed, resultAlike_succ]
          exact (ih _ (by omega) levels hlevel hlo').nest (ih _ (by omega) _ hlimit hlo'')
      rw [limited, dif_pos hone]
      refine (yields_split hone hlen).bind ?_
      have habove : len - 1 - (len - 1) / 2 = len / 2 := by omega
      simp only [habove]
      split
      · exact hnest _ _ (by omega) (by omega)
      · next hside =>
        have hsame : len / 2 = (len - 1) / 2 := by omega
        rw [hsame] at hnest ⊢
        exact hnest _ _ (by omega) (by omega)
    · rw [limited_of_le_one (by omega), resultAlike_of_le_one levels (by omega)]
      exact yields_done _

end

/-! ### The sort of a buffer -/

/-- The sort that gives up at what is not allowed does not give up: it cannot be told from the sort
by its result, the buffer it leaves, what the comparer remembers or what it was asked. -/
structure Unlimited {σ ε : Type} (allows : Nested → Bool) (ask : Comparer σ ε Int32)
    (buffer : Array Int32) (memory : σ) : Prop where
  walk : (limited allows 0 0 buffer.size).follow ask buffer memory =
    let walk := byPosition ask buffer memory
    ⟨walk.result.map some, walk.buffer, walk.memory⟩
  calls : (limited allows 0 0 buffer.size).inquiries ask buffer memory = calls ask buffer memory

theorem Allowing.unlimited {σ ε : Type} {buffer : Array Int32} (h : Allowing buffer.size allows)
    (ask : Comparer σ ε Int32) (memory : σ) : Unlimited allows ask buffer memory := by
  have heq : limited allows 0 0 buffer.size = succeeding (segment 0 buffer.size) :=
    limited_eq h (by omega)
  refine ⟨?_, ?_⟩ <;> rw [heq]
  · exact follow_succeeding ask _ buffer memory
  · exact inquiries_succeeding ask _ buffer memory

/-- Whatever the comparer does, the sorts nested in a sort of `n` elements never nest deeper than
the binary logarithm of `n + 1`, and none has more than half of the elements that the one around it
is at. Where all elements are found alike, a limit is exceeded as soon as `n + 1` is three times its
power of two, so for `n + 1` of this form there is none below the logarithm. -/
theorem nests_logarithmically {σ ε : Type} (ask : Comparer σ ε Int32) (buffer : Array Int32)
    (memory : σ) :
    let n := buffer.size
    Unlimited (shallow (Nat.log 2 (n + 1))) ask buffer memory ∧
    Unlimited halving ask buffer memory ∧
    ∀ limit, ((limited (shallow limit) 0 0 n).follow (undecided : Comparer σ ε Int32) buffer
      memory).result = .ok none ↔ 3 * 2 ^ limit ≤ n + 1 := by
  intro n
  refine ⟨(allowing_shallow n).unlimited ask memory, (allowing_halving n).unlimited ask memory,
    fun limit => ?_⟩
  rw [yields_limited limit (Nat.zero_add limit) (Nat.le_of_eq (Nat.zero_add n)) buffer memory rfl,
    resultAlike]
  split
  · next h => exact ⟨fun _ => h, fun _ => rfl⟩
  · next h => exact ⟨nofun, fun h' => absurd h' h⟩

end CallBridge.Sort
