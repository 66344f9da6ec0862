import CallBridge.Bench.Generator
import Mathlib.Data.Fintype.EquivFin

/-!
# Streams of numbers

A word exclusive-or its own shift can be read back bit by bit, from the end that the shift leaves
alone, and a product with an odd number by the inverse of that number. So each state of a generator
comes from one state only and has a number of its own: streams that begin in different states never
meet and never agree at one place, and no stream reaches zero (`streams_apart`).
-/

namespace CallBridge.Bench.Generator

/-! ### Each step is one to one -/

/-- The bits are found from the top down. -/
theorem injective_xor_shiftRight {w k : Nat} (hk : 0 < k) :
    Function.Injective fun x : BitVec w => x ^^^ (x >>> k) := by
  intro x y hxy
  have hbit : ∀ i, (x.getLsbD i ^^ x.getLsbD (k + i)) = (y.getLsbD i ^^ y.getLsbD (k + i)) := by
    intro i
    simpa using congrArg (BitVec.getLsbD · i) hxy
  -- By the distance from the top; what is beyond the word is zero in both.
  have hall : ∀ n i, w ≤ i + n → x.getLsbD i = y.getLsbD i := by
    intro n
    induction n with
    | zero =>
      intro i hi
      rw [BitVec.getLsbD_of_ge x i hi, BitVec.getLsbD_of_ge y i hi]
    | succ n ih =>
      intro i hi
      have hi' := hbit i
      rw [ih (k + i) (by omega)] at hi'
      exact Bool.xor_left_inj.1 hi'
  exact BitVec.eq_of_getLsbD_eq fun i _ => hall w i (by omega)

/-- The bits are found from the bottom up. -/
theorem injective_xor_shiftLeft {w k : Nat} (hk : 0 < k) :
    Function.Injective fun x : BitVec w => x ^^^ (x <<< k) := by
  intro x y hxy
  have hall : ∀ i < w, x.getLsbD i = y.getLsbD i := by
    intro i
    induction i using Nat.strong_induction_on with
    | h i ih =>
      intro hi
      have hi' := congrArg (BitVec.getLsbD · i) hxy
      simp only [BitVec.getLsbD_xor, BitVec.getLsbD_shiftLeft] at hi'
      by_cases hlow : i < k
      · simpa [hlow] using hi'
      · rw [ih (i - k) (by omega) (by omega)] at hi'
        exact Bool.xor_left_inj.1 hi'
  exact BitVec.eq_of_getLsbD_eq hall

theorem injective_of_toBitVec {f : UInt64 → UInt64} {f' : BitVec 64 → BitVec 64}
    (hf : ∀ x, (f x).toBitVec = f' x.toBitVec) (h : Function.Injective f') :
    Function.Injective f := by
  intro x y hxy
  have hbits := congrArg UInt64.toBitVec hxy
  rw [hf, hf] at hbits
  exact UInt64.toBitVec_inj.1 (h hbits)

theorem injective_step : Function.Injective step := by
  have hfirst : Function.Injective fun x : UInt64 => x ^^^ (x >>> 12) :=
    injective_of_toBitVec (fun _ => rfl) (injective_xor_shiftRight (k := 12) (by decide))
  have hsecond : Function.Injective fun x : UInt64 => x ^^^ (x <<< 25) :=
    injective_of_toBitVec (fun _ => rfl) (injective_xor_shiftLeft (k := 25) (by decide))
  have hthird : Function.Injective fun x : UInt64 => x ^^^ (x >>> 27) :=
    injective_of_toBitVec (fun _ => rfl) (injective_xor_shiftRight (k := 27) (by decide))
  exact hthird.comp (hsecond.comp hfirst)

theorem bijective_step : Function.Bijective step := by
  have hfinite : Finite UInt64 := .of_injective UInt64.toFin fun _ _ => UInt64.toFin_inj.1
  exact Finite.injective_iff_bijective.1 injective_step

/-- The inverse of the constant undoes the product. -/
theorem injective_output : Function.Injective output := by
  have hinverse : (0x2545F4914F6CDD1D : UInt64) * 0x59071D96D81ECD35 = 1 := by decide
  intro x y hxy
  have hback := congrArg (· * (0x59071D96D81ECD35 : UInt64)) hxy
  simpa only [output, UInt64.mul_assoc, hinverse, UInt64.mul_one] using hback

theorem step_ne_zero {x : UInt64} (hx : x ≠ 0) : step x ≠ 0 :=
  fun h => hx (injective_step (h.trans (by decide : 0 = step 0)))

theorem output_ne_zero {x : UInt64} (hx : x ≠ 0) : output x ≠ 0 :=
  fun h => hx (injective_output (h.trans (by decide : 0 = output 0)))

/-! ### Streams -/

/-- The generator after so many numbers. -/
def after (g : Generator) : Nat → Generator
  | 0 => g
  | n + 1 => g.next.2.after n

/-- The number at a place of the stream. -/
def number (g : Generator) (n : Nat) : UInt64 := (g.after n).next.1

theorem state_ofSeed_ne_zero (seed : UInt64) : (ofSeed seed).state ≠ 0 := by
  unfold ofSeed
  split
  · decide
  · assumption

theorem state_after_ne_zero {g : Generator} (hg : g.state ≠ 0) (n : Nat) :
    (g.after n).state ≠ 0 := by
  induction n generalizing g with
  | zero => exact hg
  | succ n ih => exact ih (step_ne_zero hg)

theorem number_ne_zero {g : Generator} (hg : g.state ≠ 0) (n : Nat) : g.number n ≠ 0 :=
  output_ne_zero (step_ne_zero (state_after_ne_zero hg n))

theorem state_inj {g g' : Generator} : g.state = g'.state ↔ g = g' := by
  cases g
  cases g'
  simp

theorem snd_next_ne {g g' : Generator} (h : g ≠ g') : g.next.2 ≠ g'.next.2 :=
  fun hnext => h (state_inj.1 (injective_step (congrArg state hnext)))

theorem fst_next_ne {g g' : Generator} (h : g ≠ g') : g.next.1 ≠ g'.next.1 :=
  fun hnext => h (state_inj.1 (injective_step (injective_output hnext)))

theorem after_ne {g g' : Generator} (h : g ≠ g') (n : Nat) : g.after n ≠ g'.after n := by
  induction n generalizing g g' with
  | zero => exact h
  | succ n ih => exact ih (snd_next_ne h)

/-- No stream reaches zero, whatever its seed and however many numbers were taken, with a bound or
without. Each state follows one state only, and its number is told by the state that was reached and
by no other. So two streams that are apart stay apart and never give the same number at once. -/
theorem streams_apart :
    (∀ seed n, ((ofSeed seed).after n).state ≠ 0 ∧ (ofSeed seed).number n ≠ 0) ∧
    (∀ (g : Generator) bound, (g.upTo bound).2 = g.next.2) ∧
    (Function.Bijective fun x => (next ⟨x⟩).2.state) ∧
    (∃ f : UInt64 → UInt64, Function.Injective f ∧ ∀ g : Generator, g.next.1 = f g.next.2.state) ∧
    ∀ g g' : Generator, g ≠ g' → ∀ n, g.after n ≠ g'.after n ∧ g.number n ≠ g'.number n := by
  refine ⟨fun seed n => ?_, fun g bound => rfl, bijective_step,
    ⟨output, injective_output, fun g => rfl⟩, fun g g' h n => ?_⟩
  · have hseed := state_ofSeed_ne_zero seed
    exact ⟨state_after_ne_zero hseed n, number_ne_zero hseed n⟩
  · exact ⟨after_ne h n, fst_next_ne (after_ne h n)⟩

end CallBridge.Bench.Generator
