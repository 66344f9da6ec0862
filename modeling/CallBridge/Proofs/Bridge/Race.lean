import CallBridge.Proofs.Bridge.ExactlyOnce

/-!
# Calls that race to their end

Calls on a new registry stand where threads that call again and again stand at their first calls
(`Caller.Mirrors`), so all that holds of these threads holds of them. If nobody's resolution fails,
one resolution is the only one (`Raced`). Whatever turns were taken, rounds in which everyone gets
one bring the registry to its binding and then every call to its end (`Raced.ends`).
-/

namespace CallBridge

/-- A state that lasts until an activity has its turn (`P`), which brings about another that lasts
(`Q`), ends so in every schedule that gives the activity a turn. -/
theorem Crowd.done_of_turn {σ π : Type} {conduct : Nat → Conduct σ π} {c : Crowd σ π}
    {P Q : Crowd σ π → Prop} {i : Nat} {s : List Nat}
    (wait : ∀ c, ∀ j ∈ s, j ≠ i → P c → P (c.step conduct j) ∨ Q (c.step conduct j))
    (act : ∀ c, P c → Q (c.step conduct i))
    (stays : ∀ c, ∀ j ∈ s, Q c → Q (c.step conduct j)) (h : P c) (hi : i ∈ s) :
    Q (c.run conduct s) := by
  have hdone : ∀ (t : List Nat) c, t ⊆ s → Q c → Q (c.run conduct t) := by
    intro t
    induction t with
    | nil => exact fun _ _ h => h
    | cons j t ih =>
      intro c ht h
      obtain ⟨hj, ht⟩ := List.cons_subset.1 ht
      exact ih _ ht (stays c j hj h)
  have hwaits : ∀ (t : List Nat) c, t ⊆ s → P c → i ∈ t → Q (c.run conduct t) := by
    intro t
    induction t with
    | nil => exact fun _ _ _ hi => absurd hi List.not_mem_nil
    | cons j t ih =>
      intro c ht h hi
      obtain ⟨hj, ht⟩ := List.cons_subset.1 ht
      by_cases hji : j = i
      · subst hji
        exact hdone t _ ht (act c h)
      · have hit : i ∈ t := (List.mem_cons.1 hi).resolve_left (Ne.symm hji)
        rcases wait c j hj hji h with h' | h'
        · exact ih _ ht h' hit
        · exact hdone t _ ht h'
  exact hwaits s c (List.Subset.refl s) h hi

namespace Bridge

variable {ω β ε : Type}

/-- Calls around a registry and a world. -/
abbrev Calls (ω β ε : Type) := Crowd (Venue ω β) (Call β ε)

/-- The step that each of the calls takes. -/
abbrev Call.steps (resolve : Nat → ω → Except ε β × ω) (i : Nat) : Conduct (Venue ω β) (Call β ε) :=
  Call.work (resolve i)

variable {resolve : Nat → ω → Except ε β × ω} {w₀ : ω} {callers : List Nat} {c : Calls ω β ε}
  {i j : Nat}

/-! ### First calls -/

namespace Caller
variable {t : Threads ω β ε}

/-- Threads stand at their first calls, where these calls stand. -/
structure Mirrors (c : Calls ω β ε) (t : Threads ω β ε) : Prop where
  cell : t.shared.cell = c.shared.cell
  world : t.shared.world = c.shared.world
  position : ∀ i, t.position i = ⟨[], c.position i⟩

/-- A call that has come to its end waits for the others. -/
theorem Mirrors.wait (resolve : Nat → ω → Except ε β × ω) (h : Mirrors c t) {r : Except ε β}
    (hi : c.position i = .finished r) :
    Mirrors (c.step (Call.steps resolve) i) t := by
  have hwork : Call.steps resolve i c.shared (c.position i) = (c.shared, .finished r) := by
    rw [hi]
    rfl
  refine ⟨?_, ?_, fun j => ?_⟩
  · rw [Crowd.shared_step, hwork, h.cell]
  · rw [Crowd.shared_step, hwork, h.world]
  · by_cases hj : j = i
    · subst hj
      rw [Crowd.position_step_self, hwork, h.position, hi]
    · rw [Crowd.position_step_of_ne hj, h.position]

theorem work_first (resolve : Nat → ω → Except ε β × ω) (i : Nat) (scene : Scene ω β ε)
    {call : Call β ε} (hcall : ∀ r, call ≠ .finished r) :
    let after := work (fun i _ => resolve i) i scene ⟨[], call⟩
    let own := Call.steps resolve i ⟨scene.cell, scene.world⟩ call
    after.1.cell = own.1.cell ∧ after.1.world = own.1.world ∧ after.2 = ⟨[], own.2⟩ := by
  cases call with
  | finished r => exact absurd rfl (hcall r)
  | _ => exact ⟨rfl, rfl, rfl⟩

theorem Mirrors.step (resolve : Nat → ω → Except ε β × ω) (h : Mirrors c t)
    (hi : ∀ r, c.position i ≠ .finished r) :
    Mirrors (c.step (Call.steps resolve) i) (t.step (work fun i _ => resolve i) i) := by
  obtain ⟨hcell, hworld, hcall⟩ := work_first resolve i t.shared hi
  have hshared : (⟨t.shared.cell, t.shared.world⟩ : Venue ω β) = c.shared := by
    rw [h.cell, h.world]
  rw [hshared, ← h.position] at hcell hworld hcall
  refine ⟨hcell, hworld, fun j => ?_⟩
  by_cases hj : j = i
  · subst hj
    rw [Crowd.position_step_self, Crowd.position_step_self, hcall]
  · rw [Crowd.position_step_of_ne hj, Crowd.position_step_of_ne hj, h.position]

section
variable {resolve : Nat → Nat → ω → Except ε β × ω} {scene scene' : Scene ω β ε}
  {u u' : Caller β ε}

/-- A step is a resolution, which is recorded, or has nothing to do with the world. -/
theorem Move.resolution (m : Move resolve i scene u scene' u') :
    scene'.attempts = scene.attempts ∧ scene'.world = scene.world ∨
      u.call = .resolving ∧ ∃ outcome, resolve i u.returned.length scene.world =
        (outcome, scene'.world) ∧
          scene'.attempts = scene.attempts ++ [⟨i, u.returned.length, outcome⟩] := by
  cases m with
  | resolved h => exact .inr ⟨rfl, _, h, rfl⟩
  | refused h => exact .inr ⟨rfl, _, h, rfl⟩
  | _ => exact .inl ⟨rfl, rfl⟩

/-- The stage of a registry whose claim is held. -/
theorem Sound.stage (h : Sound resolve t) (hi : (t.position i).call.holdsClaim = true) :
    Stage t.shared.cell (some (t.position i).call) (successes t.shared.attempts) := by
  obtain ⟨holder, hstaged⟩ := h.staged
  obtain rfl := (hstaged.only i).1 hi
  exact hstaged.stage

theorem Stage.of_resolving {cell : Cell β} {bs : List β}
    (h : Stage cell (some (.resolving : Call β ε)) bs) : bs = [] := by
  cases h
  rfl

end

end Caller

/-! ### One resolution -/

/-- The resolutions of a race and what they leave of the world: none yet, or one that succeeded. -/
inductive Course (resolve : Nat → ω → Except ε β × ω) (w₀ : ω) : List (Attempt β ε) → ω → Prop
  | unresolved : Course resolve w₀ [] w₀
  | won {i b w} (h : resolve i w₀ = (.ok b, w)) : Course resolve w₀ [⟨i, 0, .ok b⟩] w

/-- The calls of these callers race: they stand where threads stand that bind exactly once, and
nobody else has begun to call. -/
structure Raced (resolve : Nat → ω → Except ε β × ω) (w₀ : ω) (callers : List Nat)
    (c : Calls ω β ε) : Prop where
  mirrored : ∃ t, Caller.Sound (fun i _ => resolve i) t ∧ Caller.Mirrors c t ∧
    Course resolve w₀ t.shared.attempts c.shared.world
  outside : ∀ k, k ∉ callers → c.position k = .reading

/-- Where a call can stand, by the cell of its registry. -/
inductive Standing : Cell β → Call β ε → Prop
  | reading {cell} : Standing cell .reading
  | claiming {cell} : Standing cell .claiming
  | resolving : Standing ⟨.binding, none⟩ .resolving
  | storing {b} : Standing ⟨.binding, none⟩ (.storing b)
  | publishing {b} : Standing ⟨.binding, some b⟩ (.publishing b)
  | finished {phase b} (claimed : phase ≠ .unbound) : Standing ⟨phase, some b⟩ (.finished (.ok b))

/-- What a step can be in a race, from what the callers share and where the call stands to the same
after the step. -/
inductive Turn : Venue ω β → Call β ε → Venue ω β → Call β ε → Prop
  | found {v b} (claimed : v.cell.phase ≠ .unbound) (full : v.cell.stored = some b) :
    Turn v .reading v (.finished (.ok b))
  | missed {v} (empty : v.cell.stored = none) : Turn v .reading v .claiming
  | claimed {w} : Turn ⟨⟨.unbound, none⟩, w⟩ .claiming ⟨⟨.binding, none⟩, w⟩ .resolving
  | lost {v} (taken : v.cell.phase ≠ .unbound) : Turn v .claiming v .reading
  | resolved {w w' b} : Turn ⟨⟨.binding, none⟩, w⟩ .resolving ⟨⟨.binding, none⟩, w'⟩ (.storing b)
  | stored {w b} :
    Turn ⟨⟨.binding, none⟩, w⟩ (.storing b) ⟨⟨.binding, some b⟩, w⟩ (.publishing b)
  | published {w b} :
    Turn ⟨⟨.binding, some b⟩, w⟩ (.publishing b) ⟨⟨.bound, some b⟩, w⟩ (.finished (.ok b))
  | rests {phase w b} (claimed : phase ≠ .unbound) :
    Turn ⟨⟨phase, some b⟩, w⟩ (.finished (.ok b)) ⟨⟨phase, some b⟩, w⟩ (.finished (.ok b))

namespace Turn
variable {v v' : Venue ω β} {call call' : Call β ε} {b : β}

theorem claims (h : Turn v call v' call')
    (hv : v.cell.phase ≠ .unbound ∨ call = .claiming) : v'.cell.phase ≠ .unbound := by
  cases h with
  | missed => exact hv.resolve_right nofun
  | found hclaimed | lost hclaimed | rests hclaimed => exact hclaimed
  | claimed | resolved | stored | published => nofun

theorem keeps (h : Turn v call v' call') (hb : v.cell.stored = some b) :
    v'.cell.stored = some b := by
  cases h with
  | claimed | resolved | stored => cases hb
  | _ => exact hb

/-- Where nobody has the claim a call takes it, or tries to next. -/
theorem begins (h : Turn v call v' call') (hv : v.cell = ⟨.unbound, none⟩) :
    v'.cell.phase ≠ .unbound ∨ call' = .claiming := by
  cases h with
  | found hclaimed => exact .inl hclaimed
  | missed => exact .inr rfl
  | claimed => exact .inl nofun
  | lost htaken => exact absurd (by rw [hv]) htaken
  | resolved | stored | published => cases hv
  | rests hclaimed => exact .inl hclaimed

theorem stores (h : Turn v call v' call') :
    (call = .resolving → ∃ b, call' = .storing b) ∧
      ∀ b, call = .storing b → v'.cell.stored = some b := by
  cases h with
  | resolved => exact ⟨fun _ => ⟨_, rfl⟩, nofun⟩
  | stored =>
    refine ⟨nofun, ?_⟩
    rintro _ ⟨⟩
    rfl
  | _ => exact ⟨nofun, nofun⟩

/-- Where there is a binding a call is at its end after two steps. -/
theorem ends (h : Turn v call v' call') (hb : v.cell.stored = some b) :
    (call' = .reading ∨ call' = .finished (.ok b)) ∧
      (call = .reading ∨ call = .finished (.ok b) → call' = .finished (.ok b)) := by
  cases h with
  | found _ hb' =>
    obtain rfl := Option.some.inj (hb'.symm.trans hb)
    exact ⟨.inr rfl, fun _ => rfl⟩
  | missed hempty =>
    rw [hempty] at hb
    cases hb
  | lost => exact ⟨.inl rfl, by rintro (h | h) <;> cases h⟩
  | claimed | resolved | stored => cases hb
  | published | rests =>
    obtain rfl := Option.some.inj hb
    exact ⟨.inr rfl, fun _ => rfl⟩

end Turn

theorem Standing.turn {v : Venue ω β} {call : Call β ε} {f : ω → Except ε β × ω}
    (h : Standing v.cell call)
    (h' : Standing (Call.work f v call).1.cell (Call.work f v call).2) :
    Turn v call (Call.work f v call).1 (Call.work f v call).2 := by
  obtain ⟨cell, world⟩ := v
  cases h with
  | reading =>
    simp only [Call.work, Call.advance] at h' ⊢
    cases hstored : cell.stored with
    | none => exact .missed hstored
    | some b =>
      rw [hstored] at h'
      cases h' with
      | finished hclaimed => exact .found hclaimed hstored
  | claiming =>
    obtain ⟨phase, stored⟩ := cell
    by_cases hfree : phase = .unbound
    · subst hfree
      cases h'
      exact .claimed
    · simp only [Call.work, Call.advance, if_neg hfree]
      exact .lost hfree
  | resolving =>
    simp only [Call.work, Call.advance] at h' ⊢
    rcases hf : f world with ⟨e | b, w⟩
    · rw [hf] at h'
      cases h'
    · exact .resolved
  | storing => exact .stored
  | publishing => exact .published
  | finished hclaimed => exact .rests hclaimed

theorem Standing.of_stage {cell : Cell β} {call : Call β ε} {bs : List β}
    (h : Caller.Stage cell (some call) bs) (hno : ∀ e, call ≠ .restoring e) :
    Standing cell call := by
  cases h with
  | resolving => exact .resolving
  | restoring e => exact absurd rfl (hno e)
  | storing => exact .storing
  | publishing => exact .publishing

theorem Standing.of_stored {cell : Cell β} {b : β} (hb : cell.stored = some b)
    (hclaimed : cell.phase ≠ .unbound) : Standing cell (.finished (.ok b) : Call β ε) := by
  obtain ⟨phase, stored⟩ := cell
  obtain rfl : stored = some b := hb
  exact .finished hclaimed

theorem Course.not_error {attempts : List (Attempt β ε)} {w : ω}
    (h : Course resolve w₀ attempts w) {a : Attempt β ε} (ha : a ∈ attempts) (e : ε) :
    a.outcome ≠ .error e := by
  cases h with
  | unresolved => cases ha
  | won =>
    obtain rfl := List.mem_singleton.1 ha
    nofun

namespace Raced

theorem start (resolve : Nat → ω → Except ε β × ω) (w₀ : ω) (callers : List Nat) :
    Raced resolve w₀ callers (Call.race resolve w₀ []) :=
  ⟨⟨Caller.start w₀, .start w₀, ⟨rfl, rfl, fun _ => rfl⟩, .unresolved⟩, fun _ _ => rfl⟩

theorem step (hok : ∀ i, ∃ b w, resolve i w₀ = (.ok b, w)) (h : Raced resolve w₀ callers c)
    (hi : i ∈ callers) : Raced resolve w₀ callers (c.step (Call.steps resolve) i) := by
  obtain ⟨⟨t, hsound, hmirrors, hcourse⟩, houtside⟩ := h
  refine ⟨?_, fun k hk => ?_⟩
  · by_cases hend : ∃ r, c.position i = .finished r
    · obtain ⟨r, hr⟩ := hend
      have hwait := hmirrors.wait resolve hr
      refine ⟨t, hsound, hwait, ?_⟩
      rwa [← hwait.world, hmirrors.world]
    · have hne : ∀ r, c.position i ≠ .finished r := fun r hr => hend ⟨r, hr⟩
      have hmirrors' := hmirrors.step resolve hne
      have hmoved := Caller.moved_step (fun i _ => resolve i) i t
      refine ⟨_, hsound.step hmoved, hmirrors', ?_⟩
      rw [← hmirrors'.world]
      rw [← hmirrors.world] at hcourse
      rcases hmoved.move.resolution with ⟨hattempts, hworld⟩ | ⟨hcall, outcome, hresolve, hattempts⟩
      · rwa [hattempts, hworld]
      · -- nobody has resolved before, so this is the resolution in the world of the beginning
        have hstage := hsound.stage (i := i) (by rw [hcall]; rfl)
        rw [hcall] at hstage
        have hnone := hstage.of_resolving
        rw [hattempts, hmirrors.position]
        generalize t.shared.attempts = attempts at hcourse hnone
        generalize t.shared.world = world at hcourse hresolve
        cases hcourse with
        | won => cases hnone
        | unresolved =>
          obtain ⟨b, w, hb⟩ := hok i
          rw [hb] at hresolve
          obtain ⟨rfl, rfl⟩ := Prod.mk.inj hresolve
          exact .won hb
  · have hki : k ≠ i := fun heq => hk (heq ▸ hi)
    rw [Crowd.position_step_of_ne hki, houtside k hk]

theorem standing (h : Raced resolve w₀ callers c) (i : Nat) :
    Standing c.shared.cell (c.position i) := by
  obtain ⟨⟨t, hsound, hmirrors, hcourse⟩, -⟩ := h
  have hposition := hmirrors.position i
  have htold := hsound.told i
  have hno : ∀ e, (t.position i).results[0]? ≠ some (.error e) := fun e he =>
    hcourse.not_error (htold.error 0 e he) e rfl
  rw [hposition] at hno
  have hstage := hsound.stage (i := i)
  rw [hposition] at hstage
  rw [← hmirrors.cell]
  cases hcall : c.position i with
  | reading => exact .reading
  | claiming => exact .claiming
  | resolving | storing | publishing =>
    rw [hcall] at hstage
    exact .of_stage (hstage rfl) nofun
  | restoring e => exact absurd (by rw [hcall]; rfl) (hno e)
  | finished r =>
    rw [hcall] at hno
    cases r with
    | error e => exact absurd rfl (hno e)
    | ok b =>
      have hb := htold.ok b (by rw [hposition, hcall]; exact List.mem_singleton_self _)
      obtain ⟨holder, hstaged⟩ := hsound.staged
      exact .of_stored hb fun hfree => by
        rw [(hstaged.stage.of_unbound hfree).1] at hb
        cases hb

/-- The cell of a race: nobody has the claim, or who has it still resolves or is about to store what
it has resolved, or there is a binding. -/
theorem cell_cases (h : Raced resolve w₀ callers c) :
    c.shared.cell = ⟨.unbound, none⟩ ∨
      c.shared.cell = ⟨.binding, none⟩ ∧
        (∃ k, c.position k = .resolving ∨ ∃ b, c.position k = .storing b) ∨
      ∃ phase b, phase ≠ .unbound ∧ c.shared.cell = ⟨phase, some b⟩ := by
  have hstanding := h.standing
  obtain ⟨⟨t, hsound, hmirrors, -⟩, -⟩ := h
  obtain ⟨holder, hstaged⟩ := hsound.staged
  have hcalls : ∀ k, (t.position k).call = c.position k := fun k => by rw [hmirrors.position]
  have hstage := hstaged.stage
  rw [hmirrors.cell] at hstage
  generalize c.shared.cell = cell at hstage hstanding ⊢
  obtain ⟨phase, _ | b⟩ := cell
  · cases hholder : holder with
    | none =>
      rw [hholder] at hstage
      rcases hstage.of_free with hcell | ⟨b, hcell⟩
      · exact .inl hcell
      · cases hcell
    | some k =>
      have hk := hstanding k
      have hclaim : (c.position k).holdsClaim = true := by
        rw [← hcalls]
        exact (hstaged.only k).2 hholder
      generalize hcall : c.position k = call at hk hclaim
      cases hk with
      | resolving => exact .inr (.inl ⟨rfl, k, .inl hcall⟩)
      | storing => exact .inr (.inl ⟨rfl, k, .inr ⟨_, hcall⟩⟩)
      | reading | claiming => cases hclaim
  · refine .inr (.inr ⟨phase, b, fun hfree => ?_, rfl⟩)
    cases (hstage.of_unbound hfree).1

/-- The binding there is comes from the resolution that was made, which is all that has become of
the world. -/
theorem resolved (h : Raced resolve w₀ callers c) {b : β} (hb : c.shared.cell.stored = some b) :
    ∃ i, resolve i w₀ = (.ok b, c.shared.world) := by
  obtain ⟨⟨t, hsound, hmirrors, hcourse⟩, -⟩ := h
  obtain ⟨holder, hstaged⟩ := hsound.staged
  rw [← hmirrors.cell] at hb
  have hsuccesses := (hstaged.stage.of_stored hb).1
  generalize t.shared.attempts = attempts at hcourse hsuccesses
  cases hcourse with
  | unresolved => cases hsuccesses
  | @won i b' w hresolve =>
    cases hsuccesses
    exact ⟨i, hresolve⟩

/-! ### Everyone gets a turn -/

/-- One of the callers takes a step. -/
structure Moves (resolve : Nat → ω → Except ε β × ω) (w₀ : ω) (callers : List Nat) (j : Nat)
    (c c' : Calls ω β ε) : Prop where
  before : Raced resolve w₀ callers c
  turn : Turn c.shared (c.position j) c'.shared (c'.position j)
  other : ∀ k, k ≠ j → c'.position k = c.position k

theorem moves_step (hok : ∀ i, ∃ b w, resolve i w₀ = (.ok b, w))
    (h : Raced resolve w₀ callers c) (hj : j ∈ callers) :
    Moves resolve w₀ callers j c (c.step (Call.steps resolve) j) := by
  refine ⟨h, ?_, fun k hk => Crowd.position_step_of_ne hk⟩
  have hstanding := (h.step hok hj).standing j
  rw [Crowd.shared_step, Crowd.position_step_self] at hstanding ⊢
  exact (h.standing j).turn hstanding

/-- What the step of one caller brings about (`Q`), and no step takes back, is so after everyone had
a turn. -/
theorem round (hok : ∀ i, ∃ b w, resolve i w₀ = (.ok b, w)) {P Q : Calls ω β ε → Prop}
    (hi : i ∈ callers)
    (wait : ∀ c c' j, j ≠ i → Moves resolve w₀ callers j c c' → P c → P c' ∨ Q c')
    (act : ∀ c c', Moves resolve w₀ callers i c c' → P c → Q c')
    (stays : ∀ c c' j, Moves resolve w₀ callers j c c' → Q c → Q c')
    (h : Raced resolve w₀ callers c) (hwaits : P c) :
    Raced resolve w₀ callers (c.run (Call.steps resolve) callers) ∧
      Q (c.run (Call.steps resolve) callers) := by
  refine Crowd.done_of_turn (P := fun c => Raced resolve w₀ callers c ∧ P c)
    (Q := fun c => Raced resolve w₀ callers c ∧ Q c) ?_ ?_ ?_ ⟨h, hwaits⟩ hi
  · rintro c j hj hji ⟨h, hwaits⟩
    rcases wait c _ j hji (h.moves_step hok hj) hwaits with hstill | hdone
    · exact .inl ⟨h.step hok hj, hstill⟩
    · exact .inr ⟨h.step hok hj, hdone⟩
  · exact fun c ⟨h, hwaits⟩ => ⟨h.step hok hi, act c _ (h.moves_step hok hi) hwaits⟩
  · exact fun c j hj ⟨h, hdone⟩ => ⟨h.step hok hj, stays c _ j (h.moves_step hok hj) hdone⟩

/-- Somebody has taken the claim, or this call is about to. -/
def Begun (i : Nat) (c : Calls ω β ε) : Prop :=
  c.shared.cell.phase ≠ .unbound ∨ c.position i = .claiming

/-- There is a binding, or this call is about to store one. -/
def Found (k : Nat) (c : Calls ω β ε) : Prop :=
  (∃ b, c.position k = .storing b) ∨ ∃ b, c.shared.cell.stored = some b

/-- There is this binding, and this call has ended with it or is about to read it. -/
def Reads (b : β) (i : Nat) (c : Calls ω β ε) : Prop :=
  c.shared.cell.stored = some b ∧ (c.position i = .reading ∨ c.position i = .finished (.ok b))

theorem Moves.begun {c' : Calls ω β ε} (m : Moves resolve w₀ callers j c c') (hi : Begun i c) :
    Begun i c' := by
  rcases hi with hphase | hi
  · exact .inl (m.turn.claims (.inl hphase))
  · by_cases hij : i = j
    · subst hij
      exact .inl (m.turn.claims (.inr hi))
    · exact .inr ((m.other i hij).trans hi)

theorem Moves.found {c' : Calls ω β ε} {k : Nat} (m : Moves resolve w₀ callers j c c')
    (hk : Found k c) : Found k c' := by
  rcases hk with ⟨b, hk⟩ | ⟨b, hb⟩
  · by_cases hkj : k = j
    · subst hkj
      exact .inr ⟨b, m.turn.stores.2 b hk⟩
    · exact .inl ⟨b, (m.other k hkj).trans hk⟩
  · exact .inr ⟨b, m.turn.keeps hb⟩

theorem Moves.reads {c' : Calls ω β ε} {b : β} (m : Moves resolve w₀ callers j c c')
    (hi : Reads b i c) : Reads b i c' := by
  obtain ⟨hb, hi⟩ := hi
  refine ⟨m.turn.keeps hb, ?_⟩
  by_cases hij : i = j
  · subst hij
    exact (m.turn.ends hb).1
  · rwa [m.other i hij]

section
variable (hok : ∀ i, ∃ b w, resolve i w₀ = (.ok b, w)) (h : Raced resolve w₀ callers c)
include hok h

theorem round_begun (hi : i ∈ callers) :
    Raced resolve w₀ callers (c.run (Call.steps resolve) callers) ∧
      Begun i (c.run (Call.steps resolve) callers) := by
  refine h.round hok hi (P := fun _ => True) (fun _ _ _ _ _ _ => .inl trivial) ?_
    (fun _ _ _ m => m.begun) trivial
  intro c c' m _
  rcases m.before.cell_cases with hcell | ⟨hcell, -⟩ | ⟨phase, b, hphase, hcell⟩
  · exact m.turn.begins hcell
  · exact .inl (m.turn.claims (.inl (by rw [hcell]; nofun)))
  · exact .inl (m.turn.claims (.inl (by rw [hcell]; exact hphase)))

theorem round_claimed (hi : i ∈ callers) (hbegun : Begun i c) :
    Raced resolve w₀ callers (c.run (Call.steps resolve) callers) ∧
      (c.run (Call.steps resolve) callers).shared.cell.phase ≠ .unbound :=
  h.round hok hi (P := Begun i) (Q := fun c => c.shared.cell.phase ≠ .unbound)
    (fun _ _ _ _ m hbegun => .inl (m.begun hbegun)) (fun _ _ m hbegun => m.turn.claims hbegun)
    (fun _ _ _ m hphase => m.turn.claims (.inl hphase)) hbegun

/-- A claim that is held is held by one of the callers, who resolves and then finds. -/
theorem round_found (hi : i ∈ callers) (hphase : c.shared.cell.phase ≠ .unbound) :
    Raced resolve w₀ callers (c.run (Call.steps resolve) callers) ∧
      ∃ k ∈ callers, Found k (c.run (Call.steps resolve) callers) := by
  have hwaiting : ∃ k ∈ callers, c.position k = .resolving ∨ Found k c := by
    rcases h.cell_cases with hcell | ⟨-, k, hk⟩ | ⟨phase, b, -, hcell⟩
    · exact absurd (by rw [hcell]) hphase
    · refine ⟨k, Decidable.byContradiction fun hout => ?_, hk.imp_right .inl⟩
      have hreading := h.outside k hout
      rcases hk with hk | ⟨b, hk⟩ <;> cases hreading.symm.trans hk
    · exact ⟨i, hi, .inr (.inr ⟨b, by rw [hcell]⟩)⟩
  obtain ⟨k, hk, hwaiting⟩ := hwaiting
  refine (h.round hok hk (P := fun c => c.position k = .resolving ∨ Found k c)
    (Q := Found k) ?_ ?_ (fun _ _ _ m => m.found) hwaiting).imp_right fun hfound =>
      ⟨k, hk, hfound⟩
  · rintro c c' j hjk m (hk | hfound)
    · exact .inl (.inl ((m.other k (Ne.symm hjk)).trans hk))
    · exact .inr (m.found hfound)
  · rintro c c' m (hk | hfound)
    · exact .inl (m.turn.stores.1 hk)
    · exact m.found hfound

theorem round_stored {k : Nat} (hk : k ∈ callers) (hfound : Found k c) :
    Raced resolve w₀ callers (c.run (Call.steps resolve) callers) ∧
      ∃ b, (c.run (Call.steps resolve) callers).shared.cell.stored = some b := by
  refine h.round hok hk (P := Found k) (Q := fun c => ∃ b, c.shared.cell.stored = some b)
    (fun _ _ _ _ m hfound => .inl (m.found hfound)) ?_
    (fun _ _ _ m hstored => hstored.imp fun _ => m.turn.keeps) hfound
  rintro c c' m (⟨b, hk⟩ | ⟨b, hb⟩)
  · exact ⟨b, m.turn.stores.2 b hk⟩
  · exact ⟨b, m.turn.keeps hb⟩

theorem round_reads {b : β} (hi : i ∈ callers) (hb : c.shared.cell.stored = some b) :
    Raced resolve w₀ callers (c.run (Call.steps resolve) callers) ∧
      Reads b i (c.run (Call.steps resolve) callers) :=
  h.round hok hi (P := fun c => c.shared.cell.stored = some b)
    (fun _ _ _ _ m hb => .inl (m.turn.keeps hb))
    (fun _ _ m hb => ⟨m.turn.keeps hb, (m.turn.ends hb).1⟩) (fun _ _ _ m => m.reads) hb

theorem round_ended {b : β} (hi : i ∈ callers) (hreads : Reads b i c) :
    Raced resolve w₀ callers (c.run (Call.steps resolve) callers) ∧
      (c.run (Call.steps resolve) callers).shared.cell.stored = some b ∧
        (c.run (Call.steps resolve) callers).position i = .finished (.ok b) := by
  refine h.round hok hi (P := Reads b i)
    (Q := fun c => c.shared.cell.stored = some b ∧ c.position i = .finished (.ok b))
    (fun _ _ _ _ m hreads => .inl (m.reads hreads)) ?_ ?_ hreads
  · exact fun c c' m ⟨hb, hi⟩ => ⟨m.turn.keeps hb, (m.turn.ends hb).2 hi⟩
  · rintro c c' j m ⟨hb, hi⟩
    refine ⟨m.turn.keeps hb, ?_⟩
    by_cases hij : i = j
    · subst hij
      exact (m.turn.ends hb).2 (.inr hi)
    · exact (m.other i hij).trans hi

/-- Six rounds end all calls, with the binding of the one resolution that was made. -/
theorem ends (hi : i ∈ callers) :
    let after := c.run (Call.steps resolve) (Call.rounds 6 callers)
    ∃ b, after.position i = .finished (.ok b) ∧
      ∃ k, resolve k w₀ = (.ok b, after.shared.world) := by
  have hrounds : Call.rounds 6 callers =
      callers ++ (callers ++ (callers ++ (callers ++ (callers ++ callers)))) := by
    simp [Call.rounds, List.replicate]
  simp only [hrounds, Crowd.run_append]
  obtain ⟨h₁, hbegun⟩ := h.round_begun hok hi
  obtain ⟨h₂, hclaimed⟩ := h₁.round_claimed hok hi hbegun
  obtain ⟨h₃, k, hk, hfound⟩ := h₂.round_found hok hi hclaimed
  obtain ⟨h₄, b, hb⟩ := h₃.round_stored hok hk hfound
  obtain ⟨h₅, hreads⟩ := h₄.round_reads hok hi hb
  obtain ⟨h₆, hb, hend⟩ := h₅.round_ended hok hi hreads
  exact ⟨b, hend, h₆.resolved hb⟩

end

theorem run (hok : ∀ i, ∃ b w, resolve i w₀ = (.ok b, w)) {s : List Nat} (hs : s ⊆ callers)
    (h : Raced resolve w₀ callers c) : Raced resolve w₀ callers (c.run (Call.steps resolve) s) := by
  induction s generalizing c with
  | nil => exact h
  | cons j s ih =>
    obtain ⟨hj, hs⟩ := List.cons_subset.1 hs
    exact ih hs (h.step hok hj)

end Raced

end Bridge
end CallBridge
