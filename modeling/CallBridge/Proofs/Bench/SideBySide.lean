import CallBridge.Proofs.Bench.Calls
import CallBridge.Proofs.Bench.Shuffling
import Mathlib.Data.List.Forall2

/-!
# Trials side by side

Trials prepared at one workbench share its registries, its attached thread and its table of texts.
Still each call depends on its own trial alone: whatever trials are prepared and called in whatever
order, no call fails, each leaves the others as they are, and a trial asks as many questions by its
every call (`suite_performs`). What carries it is that a deed keeps the trials ready and leaves of
each what its recipe tells (`Suite.Holds.perform`).
-/

namespace CallBridge.Bench
open Managed

/-- What a trial is prepared from. -/
structure Recipe where
  shape : CallShape
  length : Nat
  arrangement : Arrangement
  seed : UInt64
  fits : length ≤ maxInput

namespace Recipe

def input (r : Recipe) : Array Int32 := generate r.arrangement r.length r.seed

/-- How many questions a call asks. -/
def questions (r : Recipe) : Nat :=
  if r.shape.isBridged then Sort.ascendingCalls r.input else 0

end Recipe

/-! ### Suites -/

/-- A trial is prepared or called, or someone else asks for a text of the shared table. -/
inductive Deed where
  | prepare (r : Recipe)
  | call (i : Nat)
  | request (length : Nat)

/-- A workbench of a host and the trials prepared at it. -/
structure Suite where
  host : Host
  workbench : Workbench Unit := .standard
  trials : List Trial := []

namespace Suite

def perform (s : Suite) : Deed → Except RunError Suite
  | .prepare r =>
    match (Trial.prepare r.shape r.length r.arrangement r.seed s.workbench).run s.host with
    | ((.ok t, b), host) => .ok ⟨host, b, s.trials ++ [t]⟩
    | ((.error e, _), _) => .error e
  | .call i =>
    match s.trials[i]? with
    | none => .ok s
    | some t =>
      match t.call s.workbench with
      | (.ok _, t, b) => .ok { s with workbench := b, trials := s.trials.set i t }
      | (.error e, _, _) => .error (.bridge e)
  | .request n =>
    .ok { s with workbench.patterns := (s.workbench.patterns.get n).2 }

/-- Perform deeds in their order, up to the first that fails. -/
def run (s : Suite) (deeds : List Deed) : Except RunError Suite := deeds.foldlM perform s

/-- How many questions managed code was asked so far. -/
def asked (s : Suite) : Nat := s.workbench.counters.invocations

end Suite

/-! ### What becomes of trials -/

/-- What is known of a trial: what it was prepared from, and whether it has been called. -/
structure Fate where
  recipe : Recipe
  called : Bool := false

namespace Fate

/-- The numbers in the buffer. -/
def numbers (f : Fate) : List Int :=
  if f.called && f.recipe.shape.isSort then fromZero f.recipe.length else numbersIn f.recipe.input

/-- The trial is what its fate made of it. -/
structure Fits (f : Fate) (t : Trial) : Prop where
  shape : t.shape = f.recipe.shape
  length : t.length = f.recipe.length
  input : t.input = f.recipe.input
  buffer : numbersIn t.buffer = f.numbers

variable {f : Fate} {t : Trial}

/-- A sort leaves the numbers from zero on, whatever it was called on. -/
theorem Fits.called (h : f.Fits t) : { f with called := true : Fate }.Fits t.called where
  shape := t.shape_called.trans h.shape
  length := t.length_called.trans h.length
  input := t.input_called.trans h.input
  buffer := by
    cases hsort : f.recipe.shape.isSort with
    | true =>
      have hmax : maxInput < 2 ^ 31 := by decide
      have hfits := f.recipe.fits
      rw [Trial.called_of_isSort (by rw [h.shape, hsort])]
      dsimp only
      rw [h.input, Recipe.input, ascendingWalk_generate, Nat.min_eq_left hfits,
        numbersIn_upward (by omega)]
      simp [numbers, hsort]
    | false =>
      rw [Trial.called_of_not_isSort (by rw [h.shape, hsort]), h.buffer]
      simp [numbers, hsort]

end Fate

/-- The fates of trials after one more deed. -/
def Deed.fates (fs : List Fate) : Deed → List Fate
  | .prepare recipe => fs ++ [⟨recipe, false⟩]
  | .call i => fs.modify i ({ · with called := true })
  | .request _ => fs

/-- How many questions a deed asks. -/
def Deed.questions (fs : List Fate) : Deed → Nat
  | .call i => (fs[i]?.map (·.recipe.questions)).getD 0
  | _ => 0

/-- The fates of trials after deeds. -/
def fates (deeds : List Deed) : List Fate := deeds.foldl Deed.fates []

/-! ### Every deed can be performed -/

/-- Lists that are related stay so if they are changed at one place and are related there. -/
theorem forall₂_modify_set {α β : Type} {R : α → β → Prop} {as : List α} {bs : List β}
    (h : List.Forall₂ R as bs) {i : Nat} {f : α → α} {b : β}
    (hi : ∀ a, as[i]? = some a → R (f a) b) : List.Forall₂ R (as.modify i f) (bs.set i b) := by
  induction h generalizing i with
  | nil => simp
  | cons hab hrest ih =>
    cases i with
    | zero => exact .cons (hi _ rfl) hrest
    | succ i => exact .cons hab (ih fun a ha => hi a ha)

theorem forall₂_getElem? {α β : Type} {R : α → β → Prop} {as : List α} {bs : List β}
    (h : List.Forall₂ R as bs) {i : Nat} {b : β} (hi : bs[i]? = some b) :
    ∃ a, as[i]? = some a ∧ R a b := by
  induction h generalizing i with
  | nil => cases hi
  | cons hab hrest ih =>
    cases i with
    | zero =>
      obtain rfl := Option.some.inj hi
      exact ⟨_, rfl, hab⟩
    | succ i => exact ih hi

/-- The trials are ready, and are what their fates made of them. -/
structure Suite.Holds (s : Suite) (fs : List Fate) : Prop where
  stands : ∃ m k, s.workbench.Stands m k ∧ ∀ t ∈ s.trials, t.Ready s.workbench k
  fits : List.Forall₂ Fate.Fits fs s.trials

namespace Suite
variable {s : Suite} {fs : List Fate}

theorem holds_new (host : Host) : Holds { host } [] :=
  ⟨⟨_, _, stands_standard none, by simp⟩, .nil⟩

theorem Holds.prepare (h : s.Holds fs) (recipe : Recipe) :
    ∃ s', s.perform (.prepare recipe) = .ok s' ∧ s'.Holds (fs ++ [⟨recipe, false⟩]) ∧
      s'.asked = s.asked := by
  obtain ⟨m, k, hb, hready⟩ := h.stands
  obtain ⟨t, b', hprepared, hstarts, ht, hkeeps⟩ :=
    Trial.exists_prepared hb recipe.shape recipe.length recipe.arrangement recipe.seed
  have hnew : Fate.Fits ⟨recipe, false⟩ t :=
    ⟨hstarts.shape, hstarts.length, hstarts.input, by rw [hstarts.buffer, hstarts.input]; rfl⟩
  have hperform : s.perform (.prepare recipe) = .ok ⟨s.host, b', s.trials ++ [t]⟩ := by
    rw [perform, hprepared]
    rfl
  obtain ⟨m', hb', -⟩ := ht.2
  refine ⟨_, hperform, ⟨⟨m', _, hb', ?_⟩, List.rel_append h.fits (.cons hnew .nil)⟩, ?_⟩
  · intro t' ht'
    rcases List.mem_append.1 ht' with ht' | ht'
    · exact hkeeps t' (hready t' ht')
    · rwa [List.mem_singleton.1 ht']
  · rw [asked, asked, hb.counters_eq, hb'.counters_eq]
    rfl

theorem Holds.call (h : s.Holds fs) (i : Nat) :
    ∃ s', s.perform (.call i) = .ok s' ∧ s'.Holds (Deed.fates fs (.call i)) ∧
      s'.asked = s.asked + Deed.questions fs (.call i) := by
  cases hi : s.trials[i]? with
  | none =>
    have hout : fs.length ≤ i := by
      rw [h.fits.length_eq]
      exact List.getElem?_eq_none_iff.1 hi
    refine ⟨s, by rw [perform, hi], ?_, ?_⟩
    · rwa [Deed.fates, List.modify_eq_self hout]
    · rw [Deed.questions, List.getElem?_eq_none hout]
      rfl
  | some t =>
    obtain ⟨m, k, hb, hready⟩ := h.stands
    have hmem := List.mem_of_getElem? hi
    obtain ⟨reply, b', hcall, hkeeps⟩ := (hready t hmem).call
    have hcalled := hkeeps _ (hready t hmem).called
    have hperform : s.perform (.call i) =
        .ok { s with workbench := b', trials := s.trials.set i t.called } := by
      rw [perform, hi]
      dsimp only
      rw [hcall]
    obtain ⟨f, hf, hfit⟩ := forall₂_getElem? h.fits hi
    obtain ⟨m', hb', -⟩ := hcalled.2
    refine ⟨_, hperform, ⟨⟨m', _, hb', ?_⟩, ?_⟩, ?_⟩
    -- A call may bind a registry that the others share, so they too have to be ready after it.
    · intro t' ht'
      rcases List.mem_or_eq_of_mem_set ht' with ht' | rfl
      · exact hkeeps t' (hready t' ht')
      · exact hcalled
    · refine forall₂_modify_set h.fits fun f' hf' => ?_
      obtain rfl := Option.some.inj (hf.symm.trans hf')
      exact hfit.called
    · rw [asked, asked, hb.counters_eq, hb'.counters_eq, Deed.questions, hf]
      simp [Tally.counters, Tally.asked_call, Recipe.questions, hfit.shape, hfit.input]

theorem Holds.perform (h : s.Holds fs) (d : Deed) :
    ∃ s', s.perform d = .ok s' ∧ s'.Holds (d.fates fs) ∧ s'.asked = s.asked + d.questions fs := by
  cases d with
  | prepare recipe => exact h.prepare recipe
  | call i => exact h.call i
  | request n =>
    obtain ⟨m, k, hb, hready⟩ := h.stands
    have hb' := hb.requested n
    exact ⟨_, rfl, ⟨⟨m, k, hb', fun t ht =>
      (hready t ht).moved hb hb' id fun _ _ hobject => hobject⟩, h.fits⟩, rfl⟩

theorem Holds.run (h : s.Holds fs) (deeds : List Deed) :
    ∃ s', s.run deeds = .ok s' ∧ s'.Holds (deeds.foldl Deed.fates fs) := by
  induction deeds generalizing s fs with
  | nil => exact ⟨s, rfl, h⟩
  | cons d rest ih =>
    obtain ⟨s₁, hperform, h₁, -⟩ := h.perform d
    obtain ⟨s₂, hrest, h₂⟩ := ih h₁
    refine ⟨s₂, ?_, h₂⟩
    rw [Suite.run, List.foldlM_cons, hperform]
    exact hrest

end Suite

/-- Whatever trials are prepared and called at a new workbench, in whatever order and whatever texts
others ask for, each of these deeds succeeds. A trial that was called holds the numbers from zero on
if its shape is a sort; otherwise it holds its input, as it does before the first call. The next
deed changes no trial but the one it calls, and asks the questions of that trial's input. -/
theorem suite_performs (host : Host) (deeds : List Deed) :
    ∃ s, Suite.run { host } deeds = .ok s ∧ List.Forall₂ Fate.Fits (fates deeds) s.trials ∧
      ∀ d : Deed, ∃ s', s.perform d = .ok s' ∧
        List.Forall₂ Fate.Fits (d.fates (fates deeds)) s'.trials ∧
        s'.asked = s.asked + d.questions (fates deeds) := by
  obtain ⟨s, hrun, h⟩ := (Suite.holds_new host).run deeds
  refine ⟨s, hrun, h.fits, fun d => ?_⟩
  obtain ⟨s', hperform, h', hasked⟩ := h.perform d
  exact ⟨s', hperform, h'.fits, hasked⟩

end CallBridge.Bench
