import CallBridge.Proofs.Bridge.Callers

/-!
# A registry is bound exactly once

However threads take their steps, the registry is in one of six stages (`Stage`), told by its cell,
by where the holder of the claim stands and by the resolutions that have succeeded. A step of the
holder leads to the next stage, and a step of anyone else to none. With what each thread has been
told (`Told`) this gives `ExactlyOnce`.
-/

namespace CallBridge.Bridge
namespace Caller

variable {ω β ε : Type} {resolve : Nat → Nat → ω → Except ε β × ω}
  {c : Threads ω β ε} {i : Nat} {scene scene' : Scene ω β ε} {t t' : Caller β ε}

/-! ### What a thread is told -/

/-- The results of thread `i` are what is stored or its own failures, and the attempts it is on
record with are no later than its calls. -/
structure Told (scene : Scene ω β ε) (i : Nat) (t : Caller β ε) : Prop where
  ok : ∀ b, .ok b ∈ t.results → scene.cell.stored = some b
  error : ∀ k e, t.results[k]? = some (.error e) → ⟨i, k, .error e⟩ ∈ scene.attempts
  numbered : ∀ a ∈ scene.attempts, a.thread = i → a.call < t.past

theorem Told.start (world : ω) : Told { world } i ({} : Caller β ε) := by
  refine ⟨?_, ?_, ?_⟩ <;> simp [results, Call.result?]

theorem Told.step (h : Told scene i t) (m : Move resolve i scene t scene' t') :
    Told scene' i t' := by
  have hmem := m.subset_attempts
  refine ⟨?_, ?_, ?_⟩
  · intro b hb
    rcases m.results with hr | ⟨b', hr, hb'⟩ | ⟨e, hr, -⟩
    · rw [hr] at hb
      exact m.stored (h.ok b hb)
    · rw [hr] at hb
      rcases List.mem_append.1 hb with hb | hb
      · exact m.stored (h.ok b hb)
      · obtain rfl : b = b' := by simpa using hb
        exact hb'
    · rw [hr] at hb
      exact m.stored (h.ok b (by simpa using hb))
  · intro k e hk
    rcases m.results with hr | ⟨b', hr, -⟩ | ⟨e', hr, he'⟩
    · rw [hr] at hk
      exact hmem (h.error k e hk)
    · rw [hr, List.getElem?_append] at hk
      split at hk
      · exact hmem (h.error k e hk)
      · simp [List.getElem?_singleton] at hk
    · rw [hr, List.getElem?_append] at hk
      split at hk
      · exact hmem (h.error k e hk)
      · next hlt =>
        obtain ⟨hk0, rfl⟩ : k - t.results.length = 0 ∧ e' = e := by
          simpa [List.getElem?_singleton] using hk
        obtain rfl : k = t.results.length := by omega
        exact he'
  · intro a ha hai
    rcases m.mem_attempts ha with ha | ⟨-, hp, -⟩
    · exact Nat.lt_of_lt_of_le (h.numbered a ha hai) m.past_le
    · rw [hp]
      exact Nat.lt_succ_self _

/-- A step of another thread takes nothing back. -/
theorem Told.other {j : Nat} {u : Caller β ε} (h : Told scene j u)
    (m : Move resolve i scene t scene' t') (hj : j ≠ i) : Told scene' j u := by
  refine ⟨fun b hb => m.stored (h.ok b hb), fun k e hk => ?_, fun a ha haj => ?_⟩
  · exact m.subset_attempts (h.error k e hk)
  · rcases m.mem_attempts ha with ha | ⟨hai, -⟩
    · exact h.numbered a ha haj
    · exact absurd (haj.symm.trans hai) hj

/-! ### The stages of a registry -/

/-- How far a registry has come: its cell, where the holder of the claim stands, and the bindings
that resolutions came to. -/
inductive Stage : Cell β → Option (Call β ε) → List β → Prop
  | free : Stage ⟨.unbound, none⟩ none []
  | resolving : Stage ⟨.binding, none⟩ (some .resolving) []
  | restoring (e : ε) : Stage ⟨.binding, none⟩ (some (.restoring e)) []
  | storing (b : β) : Stage ⟨.binding, none⟩ (some (.storing b)) [b]
  | publishing (b : β) : Stage ⟨.binding, some b⟩ (some (.publishing b)) [b]
  | bound (b : β) : Stage ⟨.bound, some b⟩ none [b]

def heldCall (c : Threads ω β ε) (holder : Option Nat) : Option (Call β ε) :=
  holder.map fun i => (c.position i).call

/-- The registry is in a stage, with this holder of the claim and no other. -/
structure Staged (c : Threads ω β ε) (holder : Option Nat) : Prop where
  only : ∀ i, (c.position i).call.holdsClaim = true ↔ holder = some i
  stage : Stage c.shared.cell (heldCall c holder) (successes c.shared.attempts)

theorem Staged.start (world : ω) : Staged (start world : Threads ω β ε) none :=
  ⟨by simp [Caller.start, Call.holdsClaim], .free⟩

theorem Staged.nobody {holder : Option Nat} (h : Staged c holder)
    (hcall : heldCall c holder = none) (i : Nat) : (c.position i).call.holdsClaim = false := by
  cases hi : (c.position i).call.holdsClaim with
  | false => rfl
  | true =>
    rw [(h.only i).1 hi] at hcall
    contradiction

/-- A thread without the claim changes nothing, unless it takes the claim. -/
theorem Move.idle (m : Move resolve i scene t scene' t') (h : t.call.holdsClaim = false) :
    scene' = scene ∧ t'.call.holdsClaim = false ∨
      scene.cell.phase = .unbound ∧ t'.call = .resolving ∧
        scene'.cell = { scene.cell with phase := .binding } ∧
        scene'.attempts = scene.attempts := by
  cases m with
  | read | missed | lost | returned => exact .inl ⟨rfl, rfl⟩
  | claimed free => exact .inr ⟨free, rfl, rfl, rfl⟩
  | resolved | refused | kept | published | restored => simp [Call.holdsClaim] at h

theorem Stage.of_unbound {cell : Cell β} {call : Option (Call β ε)} {bs : List β}
    (h : Stage cell call bs) (hp : cell.phase = .unbound) :
    cell = ⟨.unbound, none⟩ ∧ call = none ∧ bs = [] := by
  cases h with
  | free => exact ⟨rfl, rfl, rfl⟩
  | resolving | restoring | storing | publishing | bound => contradiction

theorem Stage.of_bound {cell : Cell β} {call : Option (Call β ε)} {bs : List β}
    (h : Stage cell call bs) (hp : cell.phase = .bound) :
    ∃ b, cell = ⟨.bound, some b⟩ ∧ call = none := by
  cases h with
  | bound b => exact ⟨b, rfl, rfl⟩
  | free | resolving | restoring | storing | publishing => contradiction

theorem Stage.of_stored {cell : Cell β} {call : Option (Call β ε)} {bs : List β}
    (h : Stage cell call bs) {b : β} (hb : cell.stored = some b) :
    bs = [b] ∧ call ≠ some .resolving := by
  cases h with
  | publishing b' | bound b' =>
    obtain rfl : b' = b := Option.some.inj hb
    simp
  | free | resolving | restoring | storing => contradiction

theorem Stage.of_free {cell : Cell β} {bs : List β} (h : Stage cell (none : Option (Call β ε)) bs) :
    cell = ⟨.unbound, none⟩ ∨ ∃ b, cell = ⟨.bound, some b⟩ := by
  cases h with
  | free => exact .inl rfl
  | bound b => exact .inr ⟨b, rfl⟩

theorem Stage.length_le {cell : Cell β} {call : Option (Call β ε)} {bs : List β}
    (h : Stage cell call bs) : bs.length ≤ 1 := by
  cases h <;> simp

/-- A step of the holder leads from one stage to another. -/
theorem Stage.step (m : Move resolve i scene t scene' t')
    (h : Stage scene.cell (some t.call) (successes scene.attempts)) :
    Stage scene'.cell (if t'.call.holdsClaim then some t'.call else none)
      (successes scene'.attempts) := by
  obtain ⟨⟨phase, stored⟩, world, attempts⟩ := scene
  obtain ⟨rs, call⟩ := t
  generalize hf : successes attempts = bs at h
  cases h with
  | resolving =>
    cases m with
    | resolved => simpa [successes_append, hf, Call.holdsClaim] using .storing _
    | refused => simpa [successes_append, hf, Call.holdsClaim] using .restoring _
  | restoring e => cases m; simpa [hf, Call.holdsClaim] using .free
  | storing b =>
    cases m with
    | kept hb' =>
      rw [Option.getD_none] at hb'
      simpa [hf, hb', Call.holdsClaim] using .publishing b
  | publishing b => cases m; simpa [hf, Call.holdsClaim] using .bound _

structure Moved (resolve : Nat → Nat → ω → Except ε β × ω) (i : Nat) (c c' : Threads ω β ε) :
    Prop where
  move : Move resolve i c.shared (c.position i) c'.shared (c'.position i)
  other : ∀ j, j ≠ i → c'.position j = c.position j

theorem moved_step (resolve : Nat → Nat → ω → Except ε β × ω) (i : Nat) (c : Threads ω β ε) :
    Moved resolve i c (c.step (work resolve) i) := by
  refine ⟨?_, fun j hj => Crowd.position_step_of_ne hj⟩
  rw [Crowd.shared_step, Crowd.position_step_self]
  exact move_work resolve i c.shared (c.position i)

variable {c' : Threads ω β ε} {holder : Option Nat}

theorem Staged.step_holder (h : Staged c (some i)) (m : Moved resolve i c c') :
    ∃ holder', Staged c' holder' := by
  have hstage := Stage.step m.move h.stage
  have hno : ∀ j, j ≠ i → ¬ (c'.position j).call.holdsClaim = true := by
    intro j hj hc
    rw [m.other j hj] at hc
    exact hj (Option.some.inj ((h.only j).1 hc)).symm
  by_cases hi : (c'.position i).call.holdsClaim = true
  · rw [if_pos hi] at hstage
    refine ⟨some i, fun j => ⟨fun hc => ?_, ?_⟩, hstage⟩
    · by_cases hj : j = i
      · rw [hj]
      · exact absurd hc (hno j hj)
    · rintro ⟨⟩
      exact hi
  · rw [if_neg hi] at hstage
    refine ⟨none, fun j => ⟨fun hc => ?_, by simp⟩, hstage⟩
    by_cases hj : j = i
    · subst hj
      exact absurd hc hi
    · exact absurd hc (hno j hj)

theorem Staged.step_idle (h : Staged c holder) (m : Moved resolve i c c')
    (hi : (c.position i).call.holdsClaim = false) : ∃ holder', Staged c' holder' := by
  rcases m.move.idle hi with ⟨hs, ht⟩ | ⟨hfree, ht, hcell, hatt⟩
  · have hiff : ∀ j, (c'.position j).call.holdsClaim = (c.position j).call.holdsClaim := by
      intro j
      by_cases hj : j = i
      · rw [hj, ht, hi]
      · rw [m.other j hj]
    refine ⟨holder, fun j => by rw [hiff, h.only], ?_⟩
    have hcall : heldCall c' holder = heldCall c holder := by
      cases holder with
      | none => rfl
      | some k =>
        have hk : k ≠ i := by
          rintro rfl
          rw [(h.only k).2 rfl] at hi
          contradiction
        exact congrArg (fun t => some t.call) (m.other k hk)
    rw [hs, hcall]
    exact h.stage
  · obtain ⟨hcell0, hcall, hsuccesses⟩ := h.stage.of_unbound hfree
    refine ⟨some i, fun j => ⟨fun hc => ?_, ?_⟩, ?_⟩
    · by_cases hj : j = i
      · rw [hj]
      · rw [m.other j hj, h.nobody hcall j] at hc
        contradiction
    · rintro ⟨⟩
      rw [ht]
      rfl
    · rw [hcell, hcell0, hatt, hsuccesses, heldCall, Option.map_some, ht]
      exact .resolving

theorem Staged.step (h : Staged c holder) (m : Moved resolve i c c') :
    ∃ holder', Staged c' holder' := by
  by_cases hi : (c.position i).call.holdsClaim = true
  · obtain rfl := (h.only i).1 hi
    exact h.step_holder m
  · exact h.step_idle m (by simpa using hi)

/-! ### What every run keeps -/

/-- What holds of threads and their registry whenever nobody is in the middle of a step. -/
structure Sound (resolve : Nat → Nat → ω → Except ε β × ω) (c : Threads ω β ε) : Prop where
  staged : ∃ holder, Staged c holder
  told : ∀ i, Told c.shared i (c.position i)
  once : c.shared.attempts.Pairwise fun a a' => a.thread = a'.thread → a.call ≠ a'.call
  genuine : ∀ a ∈ c.shared.attempts, ∃ w, a.outcome = (resolve a.thread a.call w).1

theorem Sound.start (world : ω) : Sound resolve (start world) :=
  ⟨⟨none, .start world⟩, fun _ => .start world, .nil, by simp [Caller.start]⟩

theorem Sound.step (h : Sound resolve c) (m : Moved resolve i c c') : Sound resolve c' := by
  obtain ⟨holder, hstaged⟩ := h.staged
  refine ⟨hstaged.step m, fun j => ?_, ?_, ?_⟩
  · by_cases hj : j = i
    · rw [hj]
      exact (h.told i).step m.move
    · rw [m.other j hj]
      exact (h.told j).other m.move hj
  · rcases m.move.attempts with hs | ⟨-, hp, -, w, hs⟩ <;> rw [hs]
    · exact h.once
    · refine List.pairwise_append.2 ⟨h.once, List.pairwise_singleton _ _, fun a ha a' ha' => ?_⟩
      obtain rfl := List.mem_singleton.1 ha'
      intro hthread hcall
      have := (h.told i).numbered a ha hthread
      rw [hp, hcall] at this
      exact Nat.lt_irrefl _ this
  · intro a ha
    rcases m.move.mem_attempts ha with ha | ⟨hai, -, w, hw⟩
    · exact h.genuine a ha
    · rw [hai]
      exact ⟨w, hw⟩

theorem Sound.run (h : Sound resolve c) (s : List Nat) : Sound resolve (c.run (work resolve) s) :=
  Crowd.run_induction h (fun c i h => h.step (moved_step resolve i c)) s

/-- What every step from a sound state keeps is kept later on. -/
theorem Sound.later (h : Sound resolve c) (Keeps : Threads ω β ε → Prop) (start : Keeps c)
    (step : ∀ c c' i, Sound resolve c → Keeps c → Moved resolve i c c' → Keeps c') (s : List Nat) :
    Keeps (c.run (work resolve) s) := by
  have hboth : Sound resolve (c.run (work resolve) s) ∧ Keeps (c.run (work resolve) s) := by
    refine @Crowd.run_induction _ _ _ c (fun c => Sound resolve c ∧ Keeps c) ⟨h, start⟩ ?_ s
    rintro c i ⟨hc, hk⟩
    have m := moved_step resolve i c
    exact ⟨hc.step m, step c _ i hc hk m⟩
  exact hboth.2

theorem Sound.stored_later (h : Sound resolve c) {b : β} (hb : c.shared.cell.stored = some b)
    (s : List Nat) : (c.run (work resolve) s).shared.cell.stored = some b :=
  h.later (fun c => c.shared.cell.stored = some b) hb
    (fun _ _ _ _ hb m => m.move.stored hb) s

theorem Sound.bound_later (h : Sound resolve c) (hp : c.shared.cell.phase = .bound) (s : List Nat) :
    (c.run (work resolve) s).shared.cell.phase = .bound := by
  refine h.later (fun c => c.shared.cell.phase = .bound) hp (fun c c' i hc hp m => ?_) s
  obtain ⟨holder, hstaged⟩ := hc.staged
  obtain ⟨b, -, hcall⟩ := hstaged.stage.of_bound hp
  rcases m.move.idle (hstaged.nobody hcall i) with ⟨hs, -⟩ | ⟨hfree, -⟩
  · rw [hs, hp]
  · rw [hp] at hfree
    contradiction

theorem Sound.not_resolving (h : Sound resolve c) {b : β} (hb : c.shared.cell.stored = some b)
    (i : Nat) : (c.position i).call ≠ .resolving := by
  obtain ⟨holder, hstaged⟩ := h.staged
  intro hi
  have hh : holder = some i := (hstaged.only i).1 (by rw [hi]; rfl)
  refine (hstaged.stage.of_stored hb).2 ?_
  rw [hh, heldCall, Option.map_some, hi]

theorem Sound.attempts_later (h : Sound resolve c) {b : β} (hb : c.shared.cell.stored = some b)
    (s : List Nat) : (c.run (work resolve) s).shared.attempts = c.shared.attempts := by
  have hboth := h.later
    (fun c' => c'.shared.cell.stored = some b ∧ c'.shared.attempts = c.shared.attempts)
    ⟨hb, rfl⟩ (fun c₁ c₂ i hc ⟨hb, ha⟩ m => ⟨m.move.stored hb, ?_⟩) s
  · exact hboth.2
  · rcases m.move.attempts with hs | ⟨hi, -⟩
    · rw [hs, ha]
    · exact absurd hi (hc.not_resolving hb i)

/-! ### What threads may rely on -/

/-- What threads may rely on. At most one of them holds the claim. The binding once stored is never
replaced, at most one resolution succeeds, and a call that succeeds returns this binding. A bound
registry has its binding and stays bound, and from the moment there is a binding on nobody resolves
any more. No call resolves twice, and one that fails does so with the error of its own resolution.
While nobody holds the claim the registry is unbound and empty, or bound and full. -/
structure ExactlyOnce (resolve : Nat → Nat → ω → Except ε β × ω) (c : Threads ω β ε) : Prop where
  holder : ∀ i j, (c.position i).call.holdsClaim = true →
    (c.position j).call.holdsClaim = true → i = j
  stored : ∀ b, c.shared.cell.stored = some b →
    ∀ s, (c.run (work resolve) s).shared.cell.stored = some b
  succeeded : (successes c.shared.attempts).length ≤ 1
  ok : ∀ i b, .ok b ∈ (c.position i).results →
    c.shared.cell.stored = some b ∧ successes c.shared.attempts = [b]
  bound : c.shared.cell.phase = .bound → (∃ b, c.shared.cell.stored = some b) ∧
    ∀ s, (c.run (work resolve) s).shared.cell.phase = .bound
  settled : ∀ b, c.shared.cell.stored = some b → (∀ i, (c.position i).call ≠ .resolving) ∧
    ∀ s, (c.run (work resolve) s).shared.attempts = c.shared.attempts
  once : c.shared.attempts.Pairwise fun a a' => a.thread = a'.thread → a.call ≠ a'.call
  genuine : ∀ a ∈ c.shared.attempts, ∃ w, a.outcome = (resolve a.thread a.call w).1
  error : ∀ i k e, (c.position i).results[k]? = some (.error e) →
    ⟨i, k, .error e⟩ ∈ c.shared.attempts
  unclaimed : (∀ i, (c.position i).call.holdsClaim = false) →
    c.shared.cell = ⟨.unbound, none⟩ ∨ ∃ b, c.shared.cell = ⟨.bound, some b⟩

theorem Sound.exactlyOnce (h : Sound resolve c) : ExactlyOnce resolve c := by
  obtain ⟨holder, hstaged⟩ := h.staged
  refine ⟨fun i j hi hj => ?_, fun b hb s => h.stored_later hb s, hstaged.stage.length_le,
    fun i b hb => ?_, fun hp => ⟨?_, fun s => h.bound_later hp s⟩,
    fun b hb => ⟨h.not_resolving hb, fun s => h.attempts_later hb s⟩, h.once, h.genuine,
    fun i k e hk => (h.told i).error k e hk, fun hno => ?_⟩
  · have hi := (hstaged.only i).1 hi
    rw [(hstaged.only j).1 hj] at hi
    exact (Option.some.inj hi).symm
  · have hstored := (h.told i).ok b hb
    exact ⟨hstored, (hstaged.stage.of_stored hstored).1⟩
  · obtain ⟨b, hcell, -⟩ := hstaged.stage.of_bound hp
    exact ⟨b, by rw [hcell]⟩
  · have hnone : holder = none := by
      cases holder with
      | none => rfl
      | some i => simpa [hno i] using (hstaged.only i).2 rfl
    have hstage := hstaged.stage
    rw [hnone] at hstage
    exact hstage.of_free

/-- Whatever the resolutions end with, in whatever order the threads take their steps, a registry
is bound exactly once. -/
theorem binds_exactly_once (resolve : Nat → Nat → ω → Except ε β × ω) (world : ω) (s : List Nat) :
    ExactlyOnce resolve ((start world).run (work resolve) s) :=
  ((Sound.start world).run s).exactlyOnce

-- Thread 0 gets the claim, fails and gives it back; thread 1, which lost it before, takes over.
example :
    let resolve : Nat → Nat → Nat → Except Unit Nat × Nat := fun i _ made =>
      (if made = 0 then .error () else .ok i, made + 1)
    let c := (start 0).run (work resolve) [0, 1, 0, 1, 1, 0, 0, 1, 1, 1, 1]
    c.shared.cell = ⟨.bound, some 1⟩ ∧ (c.position 0).results = [.error ()] ∧
      (c.position 1).results = [.ok 1] :=
  ⟨rfl, rfl, rfl⟩

end Caller
end CallBridge.Bridge
