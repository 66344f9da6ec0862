import CallBridge.Bridge.Claim

/-!
# Threads that call again and again

`Call.advance` moves one call on a registry. Here every thread makes one call after the other: the
step after the end of a call begins the next one. How a resolution ends is up to the thread, to the
number of its call and to a world beside the registry, so it may be anything; `Bridge.resolve` with
a context and a source for every call of every thread is one such `resolve`. The attempts are a
record of the resolutions made so far.

`move_work` lists all that a step can be. Whatever the step, a stored binding stays
(`Move.stored`), attempts stay and at most one is added, by a thread that resolves
(`Move.mem_attempts`), and at most one result is decided (`Move.results`).
-/

namespace CallBridge.Bridge

/-- A resolution that was made: the thread, the number of its call, and how it ended. -/
structure Attempt (β ε : Type) where
  thread : Nat
  call : Nat
  outcome : Except ε β

/-- What threads share. -/
structure Scene (ω β ε : Type) where
  cell : Cell β := {}
  world : ω
  attempts : List (Attempt β ε) := []

/-- Where a thread stands: what its calls have returned, first to last, and the call it is at. -/
structure Caller (β ε : Type) where
  returned : List (Except ε β) := []
  call : Call β ε := .reading

abbrev Threads (ω β ε : Type) := Crowd (Scene ω β ε) (Caller β ε)

variable {ω β ε : Type}

/-- What a call returns, from the step on that decides it. -/
def Call.result? : Call β ε → Option (Except ε β)
  | publishing b => some (.ok b)
  | restoring e => some (.error e)
  | finished r => some r
  | reading | claiming | resolving | storing _ => none

/-- Whether a call is past its resolution, or has ended without one. -/
def Call.isPast : Call β ε → Bool
  | storing _ | publishing _ | restoring _ | finished _ => true
  | reading | claiming | resolving => false

/-- The bindings that resolutions came to. -/
def successes (attempts : List (Attempt β ε)) : List β := attempts.filterMap (·.outcome.toOption)

theorem successes_append (as bs : List (Attempt β ε)) :
    successes (as ++ bs) = successes as ++ successes bs :=
  List.filterMap_append

namespace Caller

/-- The results of a thread's calls, first to last. -/
def results (t : Caller β ε) : List (Except ε β) := t.returned ++ t.call.result?.toList

/-- How many calls of a thread will not resolve any more. -/
def past (t : Caller β ε) : Nat := t.returned.length + t.call.isPast.toNat

/-- The next step of thread `i`. -/
def work (resolve : Nat → Nat → ω → Except ε β × ω) (i : Nat) : Conduct (Scene ω β ε) (Caller β ε)
  | scene, ⟨returned, .finished r⟩ => (scene, ⟨returned ++ [r], .reading⟩)
  | scene, ⟨returned, .resolving⟩ =>
    let (outcome, world) := resolve i returned.length scene.world
    let (cell, call) := Call.advance outcome scene.cell .resolving
    (⟨cell, world, scene.attempts ++ [⟨i, returned.length, outcome⟩]⟩, ⟨returned, call⟩)
  | scene, ⟨returned, call⟩ =>
    let (cell, call) := Call.advance (resolve i returned.length scene.world).1 scene.cell call
    ({ scene with cell }, ⟨returned, call⟩)

/-- Threads at a new registry. -/
def start (world : ω) : Threads ω β ε := ⟨{ world }, fun _ => {}⟩

variable {resolve : Nat → Nat → ω → Except ε β × ω} {i : Nat} {scene scene' : Scene ω β ε}
  {t t' : Caller β ε}

/-- What a step of thread `i` can be: from what it shares and where it stands to the same after
the step. -/
inductive Move (resolve : Nat → Nat → ω → Except ε β × ω) (i : Nat) :
    Scene ω β ε → Caller β ε → Scene ω β ε → Caller β ε → Prop
  | read {scene rs b} (full : scene.cell.stored = some b) :
    Move resolve i scene ⟨rs, .reading⟩ scene ⟨rs, .finished (.ok b)⟩
  | missed {scene rs} (empty : scene.cell.stored = none) :
    Move resolve i scene ⟨rs, .reading⟩ scene ⟨rs, .claiming⟩
  | claimed {scene rs} (free : scene.cell.phase = .unbound) :
    Move resolve i scene ⟨rs, .claiming⟩
      { scene with cell := { scene.cell with phase := .binding } } ⟨rs, .resolving⟩
  | lost {scene rs} (taken : scene.cell.phase ≠ .unbound) :
    Move resolve i scene ⟨rs, .claiming⟩ scene ⟨rs, .reading⟩
  | resolved {scene rs b world} (h : resolve i rs.length scene.world = (.ok b, world)) :
    Move resolve i scene ⟨rs, .resolving⟩
      ⟨scene.cell, world, scene.attempts ++ [⟨i, rs.length, .ok b⟩]⟩ ⟨rs, .storing b⟩
  | refused {scene rs e world} (h : resolve i rs.length scene.world = (.error e, world)) :
    Move resolve i scene ⟨rs, .resolving⟩
      ⟨scene.cell, world, scene.attempts ++ [⟨i, rs.length, .error e⟩]⟩ ⟨rs, .restoring e⟩
  | kept {scene rs b b'} (h : b' = scene.cell.stored.getD b) :
    Move resolve i scene ⟨rs, .storing b⟩
      { scene with cell := { scene.cell with stored := some b' } } ⟨rs, .publishing b'⟩
  | published {scene rs b} :
    Move resolve i scene ⟨rs, .publishing b⟩
      { scene with cell := { scene.cell with phase := .bound } } ⟨rs, .finished (.ok b)⟩
  | restored {scene rs e} :
    Move resolve i scene ⟨rs, .restoring e⟩
      { scene with cell := { scene.cell with phase := .unbound } } ⟨rs, .finished (.error e)⟩
  | returned {scene rs r} :
    Move resolve i scene ⟨rs, .finished r⟩ scene ⟨rs ++ [r], .reading⟩

theorem move_work (resolve : Nat → Nat → ω → Except ε β × ω) (i : Nat) (scene : Scene ω β ε)
    (t : Caller β ε) :
    Move resolve i scene t (work resolve i scene t).1 (work resolve i scene t).2 := by
  obtain ⟨rs, call⟩ := t
  cases call with
  | reading =>
    cases h : scene.cell.stored with
    | none => simpa [work, Call.advance, h] using Move.missed h
    | some b => simpa [work, Call.advance, h] using Move.read h
  | claiming =>
    by_cases h : scene.cell.phase = .unbound
    · simpa [work, Call.advance, h] using Move.claimed h
    · simpa [work, Call.advance, h] using Move.lost h
  | resolving =>
    rcases h : resolve i rs.length scene.world with ⟨_ | b, world⟩
    · simpa [work, Call.advance, h] using Move.refused h
    · simpa [work, Call.advance, h] using Move.resolved h
  | storing b => exact .kept rfl
  | publishing b => exact .published
  | restoring e => exact .restored
  | finished r => exact .returned

namespace Move

theorem stored (h : Move resolve i scene t scene' t') {b : β}
    (full : scene.cell.stored = some b) : scene'.cell.stored = some b := by
  cases h with
  | kept hk =>
    rw [full] at hk
    exact congrArg some hk
  | _ => exact full

theorem attempts (h : Move resolve i scene t scene' t') :
    scene'.attempts = scene.attempts ∨
      t.call = .resolving ∧ t.past = t.returned.length ∧ t'.past = t.returned.length + 1 ∧
        ∃ w, scene'.attempts =
          scene.attempts ++ [⟨i, t.returned.length, (resolve i t.returned.length w).1⟩] := by
  cases h with
  | resolved h => exact .inr ⟨rfl, rfl, rfl, _, by rw [h]⟩
  | refused h => exact .inr ⟨rfl, rfl, rfl, _, by rw [h]⟩
  | _ => exact .inl rfl

theorem subset_attempts (h : Move resolve i scene t scene' t') :
    scene.attempts ⊆ scene'.attempts := by
  rcases h.attempts with hs | ⟨-, -, -, w, hs⟩ <;> rw [hs]
  · exact List.Subset.refl _
  · exact List.subset_append_left _ _

theorem mem_attempts (h : Move resolve i scene t scene' t') {a : Attempt β ε}
    (ha : a ∈ scene'.attempts) :
    a ∈ scene.attempts ∨
      a.thread = i ∧ t'.past = a.call + 1 ∧ ∃ w, a.outcome = (resolve i a.call w).1 := by
  rcases h.attempts with hs | ⟨-, -, hp, w, hs⟩ <;> rw [hs] at ha
  · exact .inl ha
  · rcases List.mem_append.1 ha with ha | ha
    · exact .inl ha
    · obtain rfl := List.mem_singleton.1 ha
      exact .inr ⟨rfl, hp, w, rfl⟩

theorem past_le (h : Move resolve i scene t scene' t') : t.past ≤ t'.past := by
  cases h <;> simp [past, Call.isPast]

theorem results (h : Move resolve i scene t scene' t') :
    t'.results = t.results ∨
      (∃ b, t'.results = t.results ++ [.ok b] ∧ scene'.cell.stored = some b) ∨
      ∃ e, t'.results = t.results ++ [.error e] ∧
        ⟨i, t.results.length, .error e⟩ ∈ scene'.attempts := by
  cases h with
  | read full => exact .inr (.inl ⟨_, by simp [Caller.results, Call.result?], full⟩)
  | kept => exact .inr (.inl ⟨_, by simp [Caller.results, Call.result?], rfl⟩)
  | @refused rs e =>
    refine .inr (.inr ⟨e, ?_, ?_⟩) <;> simp [Caller.results, Call.result?]
  | _ => exact .inl (by simp [Caller.results, Call.result?])

end Move
end Caller
end CallBridge.Bridge
