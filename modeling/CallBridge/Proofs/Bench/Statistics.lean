import CallBridge.Proofs.Bench.Obliging
import CallBridge.Bench.Run
import CallBridge.Proofs.Decimal.Shortest
import Mathlib.Data.List.Sort

/-!
# Samples summed up

Samples that are finite and not negative are sorted by their bits, and lists with the same samples
are sorted to the same list (`ascending_eq_of_perm`); so what they are summed up to does not depend
on their order, to the last bit. The place of a percentile is worked out in doubles, but it never
falls when the percentile grows (`percentilePlace_mono`), so the percentiles are in order. Every
sample that a measurement takes is finite and positive, as long as the steady clock stays below the
longest duration (`run_measure`).
-/

namespace CallBridge
open Binary64

namespace Binary64

/-- A product with infinity has no nearest whole number. -/
theorem roundHalfUp_infinity_mul (y : Binary64) : ((infinity false).mul y).roundHalfUp = 0 := by
  have hnan : (infinity false).isNaN = false := by decide
  have hinfinite : (infinity false).isInfinite = true := by decide
  have hzero : nan.roundHalfUp = 0 ∧ ∀ negative, (infinity negative).roundHalfUp = 0 := by decide
  rw [mul, hnan, hinfinite]
  simp only [Bool.false_or, Bool.true_or, if_true]
  split_ifs
  · exact hzero.1
  · exact hzero.1
  · exact hzero.2 _

theorem ofNat_cases (n : Nat) : (ofNat n).IsFinitePositive ∨ ofNat n = infinity false := by
  have hle : (ofNat n).bits.toNat ≤ infinityBits := toNat_ofScaled_le n 1 Nat.one_pos unitScale
  rcases Nat.lt_or_eq_of_le hle with hlt | heq
  · exact .inl hlt
  · have hinfinity : (infinity false).bits.toNat = infinityBits := toNat_ofSigned (Nat.le_refl _)
    exact .inr (congrArg mk (UInt64.toNat_inj.1 (heq.trans hinfinity.symm)))

end Binary64

namespace Bench
namespace Latency

/-! ### The place of a percentile -/

/-- A share of one in hundredths. -/
def share (percent : Nat) : Binary64 := ofDecimal false percent (-2)

theorem share_eq (percent : Nat) : share percent = ofScaled false percent 100 unitScale := by
  rw [share, ofDecimal]
  split_ifs with hzero hhigh hlow
  · rw [hzero]
    rfl
  · omega
  · omega
  · change ofScaled false (percent * 1) 100 unitScale = _
    rw [Nat.mul_one]

theorem share_mono {p q : Nat} (h : p ≤ q) : (share p).bits.toNat ≤ (share q).bits.toNat := by
  have hcast : (p : ℚ) ≤ q := by exact_mod_cast h
  rw [share_eq, share_eq]
  refine ofScaled_mono (by decide) (by decide) ?_
  gcongr

theorem isFinitePositive_share {p : Nat} (h : p ≤ 100) : (share p).IsFinitePositive :=
  Nat.lt_of_le_of_lt (share_mono h) (by decide +kernel)

/-- The largest finite double. -/
def largest : Binary64 := ⟨UInt64.ofNat (infinityBits - 1)⟩

theorem isFinitePositive_mul_share {x : Binary64} (hx : x.IsFinitePositive) {p : Nat}
    (h : p ≤ 100) : (x.mul (share p)).IsFinitePositive := by
  have hlargest : largest.IsFinitePositive ∧ (largest.mul (share 100)).IsFinitePositive := by
    decide +kernel
  have hle : x.bits.toNat ≤ largest.bits.toNat := Nat.le_sub_one_of_lt hx
  refine Nat.lt_of_le_of_lt ?_ hlargest.2
  exact mul_mono hx hlargest.1 (isFinitePositive_share h) (isFinitePositive_share (Nat.le_refl 100))
    hle (share_mono h)

/-- The place of a larger percentile is not before that of a smaller one. -/
theorem percentilePlace_mono (n : Nat) {p q : Nat} (h : p ≤ q) (hq : q ≤ 100) :
    percentilePlace n p ≤ percentilePlace n q := by
  have hround : ((ofNat n).mul (share p)).roundHalfUp ≤ ((ofNat n).mul (share q)).roundHalfUp := by
    have hp := h.trans hq
    rcases ofNat_cases n with hn | hn
    · have hmul : ((ofNat n).mul (share p)).bits.toNat ≤ ((ofNat n).mul (share q)).bits.toNat :=
        mul_mono hn hn (isFinitePositive_share hp) (isFinitePositive_share hq) (Nat.le_refl _)
          (share_mono h)
      exact roundHalfUp_mono (isFinitePositive_mul_share hn hp) (isFinitePositive_mul_share hn hq)
        hmul
    · -- a number of samples beyond every double is infinite, and then every place is the first
      rw [hn, roundHalfUp_infinity_mul, roundHalfUp_infinity_mul]
  exact min_le_min_right n hround

theorem percentilePlace_lt {samples : List Binary64} (h : samples ≠ []) (percent : Nat) :
    percentilePlace (samples.length - 1) percent < samples.length := by
  have hpos := List.length_pos_iff.2 h
  exact Nat.lt_of_le_of_lt (Nat.min_le_right ..) (Nat.sub_lt hpos Nat.one_pos)

example : [50, 95, 99].map (percentilePlace 14) = [7, 13, 14] := by decide +kernel

/-! ### Samples in ascending order -/

/-- Whether the bits of a double are not above those of another. -/
def bitsLe (x y : Binary64) : Bool := x.bits.toNat ≤ y.bits.toNat

section
variable {samples permuted : List Binary64}

theorem ascending_eq (h : ∀ x ∈ samples, x.IsFinitePositive) :
    ascending samples = samples.mergeSort bitsLe := by
  have hordered : areOrdered samples = true := by
    refine List.all_eq_true.2 fun x hx => ?_
    rw [(h x hx).isNaN]
    rfl
  have hle : ∀ x ∈ samples, ∀ y ∈ samples, (!y.lt x) = bitsLe (id x) (id y) := by
    intro x hx y hy
    rw [lt_eq (h y hy) (h x hx), bitsLe, ← decide_not, decide_eq_decide]
    exact Nat.not_lt
  have hsort := List.map_mergeSort hle
  rw [List.map_id, List.map_id] at hsort
  rw [ascending, ascending?, if_pos hordered, Option.getD_some, hsort]

theorem perm_ascending (h : ∀ x ∈ samples, x.IsFinitePositive) :
    (ascending samples).Perm samples := by
  rw [ascending_eq h]
  exact List.mergeSort_perm ..

theorem pairwise_ascending (h : ∀ x ∈ samples, x.IsFinitePositive) :
    (ascending samples).Pairwise fun x y => x.bits.toNat ≤ y.bits.toNat := by
  rw [ascending_eq h]
  refine (List.pairwise_mergeSort ?_ ?_ samples).imp of_decide_eq_true
  · intro x y z hxy hyz
    exact decide_eq_true (Nat.le_trans (of_decide_eq_true hxy) (of_decide_eq_true hyz))
  · intro x y
    simpa [bitsLe] using Nat.le_total x.bits.toNat y.bits.toNat

theorem units_ascending (h : ∀ x ∈ samples, x.IsFinitePositive) :
    (ascending samples).Pairwise fun x y => x.units ≤ y.units := by
  have hmem := fun x => (perm_ascending h).mem_iff (a := x)
  refine (pairwise_ascending h).imp_of_mem fun hx hy hle => ?_
  exact units_mono (h _ ((hmem _).1 hx)) (h _ ((hmem _).1 hy)) hle

/-- The same samples in another order are sorted to the same list. -/
theorem ascending_eq_of_perm (h : ∀ x ∈ samples, x.IsFinitePositive)
    (hperm : permuted.Perm samples) : ascending permuted = ascending samples := by
  have h' : ∀ x ∈ permuted, x.IsFinitePositive := fun x hx => h x (hperm.mem_iff.1 hx)
  refine List.Perm.eq_of_pairwise ?_ (pairwise_ascending h') (pairwise_ascending h)
    (((perm_ascending h').trans hperm).trans (perm_ascending h).symm)
  rintro ⟨x⟩ ⟨y⟩ - - hxy hyx
  exact congrArg Binary64.mk (UInt64.toNat_inj.1 (Nat.le_antisymm hxy hyx))

theorem ofSamples_eq_of_perm (h : ∀ x ∈ samples, x.IsFinitePositive)
    (hperm : permuted.Perm samples) : ofSamples permuted = ofSamples samples := by
  rw [ofSamples, ofSamples, ascending_eq_of_perm h hperm, hperm.isEmpty_eq]

theorem exists_percentile {sorted : List Binary64} (h : sorted ≠ []) (percent : Nat) :
    ∃ hlt, percentile sorted percent =
      sorted.get ⟨percentilePlace (sorted.length - 1) percent, hlt⟩ := by
  have hlt := percentilePlace_lt h percent
  refine ⟨hlt, ?_⟩
  rw [percentile, List.getD_eq_getElem?_getD, List.getElem?_eq_getElem hlt]
  rfl

theorem ascending_ne_nil (hne : samples ≠ []) (h : ∀ x ∈ samples, x.IsFinitePositive) :
    ascending samples ≠ [] := by
  intro hnil
  have hperm := perm_ascending h
  rw [hnil] at hperm
  exact hne hperm.nil_eq.symm

theorem percentile_mem (hne : samples ≠ []) (h : ∀ x ∈ samples, x.IsFinitePositive)
    (percent : Nat) : percentile (ascending samples) percent ∈ samples := by
  obtain ⟨hlt, heq⟩ := exists_percentile (ascending_ne_nil hne h) percent
  rw [heq]
  exact (perm_ascending h).mem_iff.1 (List.get_mem ..)

theorem percentile_mono (hne : samples ≠ []) (h : ∀ x ∈ samples, x.IsFinitePositive) {p q : Nat}
    (hpq : p ≤ q) (hq : q ≤ 100) :
    (percentile (ascending samples) p).units ≤ (percentile (ascending samples) q).units := by
  obtain ⟨hlt, heq⟩ := exists_percentile (ascending_ne_nil hne h) p
  obtain ⟨hlt', heq'⟩ := exists_percentile (ascending_ne_nil hne h) q
  have hplaces := percentilePlace_mono ((ascending samples).length - 1) hpq hq
  rw [heq, heq']
  rcases Nat.lt_or_eq_of_le hplaces with hbefore | hsame
  · exact List.pairwise_iff_get.1 (units_ascending h) _ _ hbefore
  · simp only [hsame, Nat.le_refl]

end

/-- What samples are summed up to does not depend on their order. It is found in the samples in
ascending order, each percentile at a place of them, and the percentiles ascend. -/
structure IsOrderly (samples : List Binary64) : Prop where
  order : ∀ permuted : List Binary64, permuted.Perm samples →
    ofSamples permuted = ofSamples samples
  perm : (ascending samples).Perm samples
  ascends : (ascending samples).Pairwise fun x y => x.units ≤ y.units
  place : ∀ percent, ∃ hlt, percentile (ascending samples) percent =
    (ascending samples).get ⟨percentilePlace ((ascending samples).length - 1) percent, hlt⟩
  p50 : (ofSamples samples).p50 ∈ samples
  p95 : (ofSamples samples).p95 ∈ samples
  p99 : (ofSamples samples).p99 ∈ samples
  p50_le : (ofSamples samples).p50.units ≤ (ofSamples samples).p95.units
  p95_le : (ofSamples samples).p95.units ≤ (ofSamples samples).p99.units

theorem isOrderly {samples : List Binary64} (hne : samples ≠ [])
    (h : ∀ x ∈ samples, x.IsFinitePositive) : IsOrderly samples := by
  have hmem := percentile_mem hne h
  have hsum : ofSamples samples =
      { samples := (ascending samples).length
        p50 := percentile (ascending samples) 50
        p95 := percentile (ascending samples) 95
        p99 := percentile (ascending samples) 99
        mean := meanOf (ascending samples) } :=
    if_neg (mt List.isEmpty_iff.1 hne)
  refine ⟨fun permuted hperm => ofSamples_eq_of_perm h hperm, perm_ascending h, units_ascending h,
    exists_percentile (ascending_ne_nil hne h), ?_, ?_, ?_, ?_, ?_⟩ <;> rw [hsum]
  · exact hmem 50
  · exact hmem 95
  · exact hmem 99
  · exact percentile_mono hne h (by decide) (by decide)
  · exact percentile_mono hne h (by decide) (by decide)

end Latency

/-! ### The samples of a measurement -/

/-- No duration is as long, in nanoseconds: its seconds are an unsigned 64-bit number. -/
def durationBound : Nat := 2 ^ 64 * 10 ^ 9

/-- A double that is finite and positive. -/
def IsSample (x : Binary64) : Prop := x.IsFinitePositive ∧ 0 < x.units

theorem isSample_perCall {start stop calls : Nat} (hstop : stop < durationBound)
    (hcalls : 0 < calls) (hword : calls < 2 ^ 64) : IsSample (perCall start stop calls) := by
  have hends : ((ofNat 1).div (ofNat (2 ^ 64))).IsFinitePositive ∧
      0 < ((ofNat 1).div (ofNat (2 ^ 64))).units ∧
      ((ofNat durationBound).div (ofNat 1)).IsFinitePositive := by decide +kernel
  have hfinite : (ofNat durationBound).IsFinitePositive ∧ (ofNat (2 ^ 64)).IsFinitePositive ∧
      (ofNat 1).IsFinitePositive ∧ 0 < (ofNat 1).units := by decide +kernel
  obtain ⟨hlongest, hmost, hone, hunits⟩ := hfinite
  have hduration : (ofNat (max (stop - start) 1)).bits.toNat ≤ (ofNat durationBound).bits.toNat :=
    ofNat_mono (by unfold durationBound at *; omega)
  have hdivisor : (ofNat calls).bits.toNat ≤ (ofNat (2 ^ 64)).bits.toNat := ofNat_mono hword.le
  have hdividend := Nat.lt_of_le_of_lt hduration hlongest
  have hcallsFinite := Nat.lt_of_le_of_lt hdivisor hmost
  have hpositive : 0 < (ofNat calls).units :=
    Nat.lt_of_lt_of_le hunits (units_mono hone hcallsFinite (ofNat_mono hcalls))
  have hupper : (perCall start stop calls).IsFinitePositive :=
    Nat.lt_of_le_of_lt (div_mono hdividend hlongest hcallsFinite hone hunits hduration
      (ofNat_mono hcalls)) hends.2.2
  refine ⟨hupper, Nat.lt_of_lt_of_le hends.2.1 (units_mono hends.1 hupper ?_)⟩
  exact div_mono hone hdividend hmost hcallsFinite hpositive (ofNat_mono (Nat.le_max_right ..))
    hdivisor

section
variable {σ α β : Type} {b b' : Workbench σ} {h h' : Host}

/-- Calls ask nothing of the host. -/
theorem Trial.host_calls {t t' : Trial} {n : Nat}
    (hrun : (t.calls n b).run h = ((.ok t', b'), h')) : h' = h := by
  unfold calls at hrun
  rcases hcalls : repeatCall n t b with ⟨e | ⟨⟩, t₁, b₁⟩ <;> rw [hcalls] at hrun <;> cases hrun
  rfl

/-- The clock does not go back while samples are taken, and if it stays below the longest duration,
all of them are finite and positive. -/
theorem run_takeSamples {calls : Nat} (hcalls : 0 < calls) (hword : calls < 2 ^ 64) {n : Nat}
    {t : Trial} {taken samples : List Binary64}
    (hrun : (takeSamples calls n t taken b).run h = ((.ok samples, b'), h')) :
    h.clock.elapsed ≤ h'.clock.elapsed ∧ samples.length = taken.length + n ∧
      (h'.clock.elapsed < durationBound → (∀ x ∈ taken, IsSample x) →
        ∀ x ∈ samples, IsSample x) := by
  induction n generalizing t taken b h with
  | zero =>
    cases hrun
    refine ⟨Nat.le_refl _, List.length_reverse, fun _ htaken x hx => ?_⟩
    exact htaken x (List.mem_reverse.1 hx)
  | succ n ih =>
    obtain ⟨start, b₁, h₁, hstart, hrun⟩ := Task.exists_of_run_bind hrun
    obtain ⟨t₁, b₂, h₂, hcalled, hrun⟩ := Task.exists_of_run_bind hrun
    obtain ⟨stop, b₃, h₃, hstop, hrun⟩ := Task.exists_of_run_bind hrun
    obtain rfl := Trial.host_calls hcalled
    cases hstart
    cases hstop
    obtain ⟨hlater, hlength, hsamples⟩ := ih hrun
    have hfirst := h.clock.elapsed_le_read
    have hsecond := h.clock.read.2.elapsed_le_read
    refine ⟨(hfirst.trans hsecond).trans hlater, ?_, fun hbound htaken => hsamples hbound ?_⟩
    · rw [hlength, List.length_cons]
      omega
    · refine List.forall_mem_cons.2 ⟨?_, htaken⟩
      exact isSample_perCall (Nat.lt_of_le_of_lt hlater hbound) hcalls hword

/-- What a measurement sums up are samples that are finite and positive, at least one. -/
theorem run_measure {p : Plan} {shape : CallShape} {length : Nat} {m : Measurement}
    (hword : p.sizing.calls < 2 ^ 64)
    (hrun : (measure p shape length b).run h = ((.ok m, b'), h'))
    (hbound : h'.clock.elapsed < durationBound) :
    ∃ samples, samples ≠ [] ∧ (∀ x ∈ samples, IsSample x) ∧
      m.latency = Latency.ofSamples samples := by
  unfold measure at hrun
  split_ifs at hrun with hnothing
  · cases hrun
  obtain ⟨t₀, b₀, h₀, -, hrun⟩ := Task.exists_of_run_bind hrun
  obtain ⟨t₁, b₁, h₁, -, hrun⟩ := Task.exists_of_run_bind hrun
  obtain ⟨⟨bridgeCalls, t₂⟩, b₂, h₂, -, hrun⟩ := Task.exists_of_run_bind hrun
  obtain ⟨⟨⟩, b₃, h₃, -, hrun⟩ := Task.exists_of_run_bind hrun
  obtain ⟨samples, b₄, h₄, htaken, hrun⟩ := Task.exists_of_run_bind hrun
  cases hrun
  obtain ⟨-, hlength, hsamples⟩ := run_takeSamples (by omega) hword htaken
  refine ⟨samples, List.ne_nil_of_length_pos ?_, hsamples hbound (List.forall_mem_nil _), rfl⟩
  rw [hlength, List.length_nil]
  omega

/-- Samples that are finite and not negative are summed up without regard to their order, and every
measurement sums up such samples. -/
theorem latency_orderly :
    (∀ samples : List Binary64, samples ≠ [] → (∀ x ∈ samples, x.IsFinitePositive) →
      Latency.IsOrderly samples) ∧
    ∀ (p : Plan) (shape : CallShape) (length : Nat) (b b' : Workbench σ) (h h' : Host)
      (m : Measurement), p.sizing.calls < 2 ^ 64 →
      (measure p shape length b).run h = ((.ok m, b'), h') → h'.clock.elapsed < durationBound →
      ∃ samples, samples ≠ [] ∧ (∀ x ∈ samples, IsSample x) ∧
        m.latency = Latency.ofSamples samples := by
  refine ⟨fun samples hne h => Latency.isOrderly hne h, ?_⟩
  intro p shape length b b' h h' m hword hrun hbound
  exact run_measure hword hrun hbound

/-- Five samples with a tie, and a shape that is measured by two. -/
theorem latency_orderly_ties :
    let samples := [40, 10, 30, 10, 50].map Binary64.ofNat
    let p : Plan := { sizing := ⟨0, 2, 3⟩ }
    let h : Host := { wall := { seconds := 1700000000 }, clock := { ticks := #[1000, 7] } }
    (Latency.IsOrderly samples ∧
      Latency.ofSamples ([10, 10, 30, 40, 50].map Binary64.ofNat) = Latency.ofSamples samples) ∧
    ∃ m b' h', (measure p .noop 0 Workbench.standard).run h = ((.ok m, b'), h') ∧
      ∃ samples, samples ≠ [] ∧ (∀ x ∈ samples, IsSample x) ∧
        m.latency = Latency.ofSamples samples := by
  intro samples p h
  obtain ⟨horderly, hmeasured⟩ := @latency_orderly Unit
  have hsamples := horderly samples (List.cons_ne_nil _ _) (by decide +kernel)
  have hperm : [10, 10, 30, 40, 50].Perm [40, 10, 30, 10, 50] := by decide
  refine ⟨⟨hsamples, hsamples.order _ (hperm.map _)⟩, _, _, _, rfl, ?_⟩
  exact hmeasured p .noop 0 Workbench.standard _ h _ _ (by decide) rfl (by decide +kernel)

end
end Bench
end CallBridge
