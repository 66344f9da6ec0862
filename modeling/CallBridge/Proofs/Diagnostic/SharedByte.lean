import CallBridge.Diagnostic.Setting

/-!
# A setting is looked up once

However callers take their steps, a setting is in one of four stages (`Stage`), told by its byte, by
where the caller stands that has marked it, and by who has looked it up. Only a step of that caller
leads on to the next stage. All others are bystanders (`Bystander`), who return the value they find
or else the default. What they find is never taken for a mark, nor a mark for a value, as the values
of a setting are none of the two marks (`Lawful`). So `LookedUpOnce` holds of every run.
-/

namespace CallBridge.Diagnostic
namespace Setting

variable {s : Setting} {environment : String → Option String} {b b' : UInt8} {i : Nat}

/-! ### Values and marks -/

/-- No value of a setting is one of the two marks. -/
structure Lawful (s : Setting) : Prop where
  read : ∀ text, isValue (s.read text) = true
  standard : isValue s.standard = true

theorem Lawful.configured (h : s.Lawful) (environment : String → Option String) :
    isValue (s.configured environment) = true := by
  unfold Setting.configured
  cases environment s.name with
  | none => exact h.standard
  | some text => exact h.read text

theorem ne_unresolved (h : isValue b = true) : b ≠ unresolved := by
  rintro rfl
  cases h

theorem ne_resolving (h : isValue b = true) : b ≠ resolving := by
  rintro rfl
  cases h

theorem lawful_level : Level.setting.Lawful := by
  have h : ∀ level : Level, isValue level.toByte = true := by
    intro level
    cases level <;> decide
  refine ⟨fun text => ?_, ?_⟩ <;> simp only [Level.setting, h]

theorem lawful_onFatal : OnFatal.setting.Lawful := by
  have h : ∀ reaction : OnFatal, isValue reaction.toByte = true := by
    intro reaction
    cases reaction <;> decide
  refine ⟨fun text => ?_, ?_⟩ <;> simp only [OnFatal.setting, h]

theorem ofByte_configured_level (environment : String → Option String) :
    Level.ofByte (Level.setting.configured environment) =
      ((environment "FFIBENCH_LOG").map Level.ofText).getD Level.standard := by
  simp only [Setting.configured, Level.setting]
  cases environment "FFIBENCH_LOG" with
  | none => exact Level.ofByte_toByte Level.standard
  | some text => simp only [Option.map_some, Option.getD_some, Level.ofByte_toByte]

theorem ofByte_configured_onFatal (environment : String → Option String) :
    OnFatal.ofByte (OnFatal.setting.configured environment) =
      ((environment "FFIBENCH_ON_FATAL").map OnFatal.ofText).getD OnFatal.standard := by
  simp only [Setting.configured, OnFatal.setting]
  cases environment "FFIBENCH_ON_FATAL" with
  | none => exact OnFatal.ofByte_toByte OnFatal.standard
  | some text => simp only [Option.map_some, Option.getD_some, OnFatal.ofByte_toByte]

/-! ### One step -/

/-- What a step of a caller does to the byte and to the caller. -/
inductive Move (s : Setting) (environment : String → Option String) :
    UInt8 → Caller → UInt8 → Caller → Prop
  | found {b : UInt8} (h : isValue b = true) : Move s environment b .loading b (.returned b)
  | marked : Move s environment resolving .loading resolving (.returned s.standard)
  | missed : Move s environment unresolved .loading unresolved .claiming
  | claimed : Move s environment unresolved .claiming resolving .looking
  | lost {b : UInt8} (h : b ≠ unresolved) : Move s environment b .claiming b .reloading
  | reloaded {b : UInt8} (h : isValue b = true) : Move s environment b .reloading b (.returned b)
  | unfinished {b : UInt8} (h : isValue b = false) :
    Move s environment b .reloading b (.returned s.standard)
  | looked {b : UInt8} :
    Move s environment b .looking b (.storing (s.configured environment))
  | stored {b v : UInt8} : Move s environment b (.storing v) v (.returned v)
  | rested {b v : UInt8} : Move s environment b (.returned v) b (.returned v)

theorem move_advance (s : Setting) (environment : String → Option String) (b : UInt8) (p : Caller) :
    Move s environment b p (s.advance environment b p).1 (s.advance environment b p).2 := by
  cases p with
  | loading =>
    cases h : isValue b with
    | true => simpa [advance, h] using Move.found h
    | false =>
      by_cases hb : b = resolving
      · subst hb
        exact .marked
      · obtain rfl : b = unresolved := by simpa [isValue, hb] using h
        exact .missed
  | claiming =>
    by_cases hb : b = unresolved
    · subst hb
      exact .claimed
    · simpa [advance, hb] using Move.lost hb
  | reloading =>
    cases h : isValue b with
    | true => simpa [advance, h] using Move.reloaded h
    | false => simpa [advance, h] using Move.unfinished h
  | looking => exact .looked
  | storing v => exact .stored
  | returned v => exact .rested

theorem Move.of_returned {v : UInt8} {p : Caller} (m : Move s environment b (.returned v) b' p) :
    b' = b ∧ p = .returned v := by
  cases m with
  | rested => exact ⟨rfl, rfl⟩

/-- Only a caller that looks the variable up sees the environment. -/
theorem advance_of_ne_looking {p : Caller} (h : p ≠ .looking)
    (environment environment' : String → Option String) (b : UInt8) :
    s.advance environment b p = s.advance environment' b p := by
  cases p with
  | looking => exact absurd rfl h
  | loading | claiming | reloading | storing | returned => rfl

/-- The steps that a caller has still to take at most. -/
def Caller.left : Caller → Nat
  | loading => 4
  | claiming => 3
  | looking => 2
  | reloading | storing _ => 1
  | returned _ => 0

theorem Move.left {p p' : Caller} (m : Move s environment b p b' p') : p'.left ≤ p.left - 1 := by
  cases m <;> simp [Caller.left]

/-- The way of a byte: from unresolved to resolving to the value that is configured. -/
inductive Onward (s : Setting) (environment : String → Option String) : UInt8 → UInt8 → Prop
  | still {b : UInt8} : Onward s environment b b
  | marked : Onward s environment unresolved resolving
  | kept : Onward s environment resolving (s.configured environment)

theorem Onward.of_configured (h : Onward s environment b b') (lawful : s.Lawful)
    (hb : b = s.configured environment) : b' = s.configured environment := by
  have hvalue : isValue b = true := hb ▸ lawful.configured environment
  cases h with
  | still => exact hb
  | marked => exact absurd rfl (ne_unresolved hvalue)
  | kept => exact absurd rfl (ne_resolving hvalue)

/-! ### A whole run -/

/-- Callers before any of them has taken a step. -/
def fresh : Crowd UInt8 Caller := ⟨unresolved, fun _ => .loading⟩

/-- The callers that look the variable up along a schedule, one after the other. -/
def readers (s : Setting) (environment : String → Option String) :
    Crowd UInt8 Caller → List Nat → List Nat
  | _, [] => []
  | c, i :: schedule =>
    let later := readers s environment (c.step (fun _ => s.advance environment) i) schedule
    if c.position i = .looking then i :: later else later

/-- The stages of a setting: its byte, the caller that has marked it with the place where that one
stands, and the callers that have looked it up. -/
inductive Stage (s : Setting) (environment : String → Option String) :
    UInt8 → Option (Nat × Caller) → List Nat → Prop
  | untouched : Stage s environment unresolved none []
  | looking (i : Nat) : Stage s environment resolving (some (i, .looking)) []
  | storing (i : Nat) :
    Stage s environment resolving (some (i, .storing (s.configured environment))) [i]
  | kept (i : Nat) :
    Stage s environment (s.configured environment)
      (some (i, .returned (s.configured environment))) [i]

/-- Where a caller can stand that has not marked the byte. -/
inductive Bystander (s : Setting) (environment : String → Option String) : Caller → Prop
  | loading : Bystander s environment .loading
  | claiming : Bystander s environment .claiming
  | reloading : Bystander s environment .reloading
  | returned {v : UInt8} (h : v = s.standard ∨ v = s.configured environment) :
    Bystander s environment (.returned v)

/-- A setting is in a stage, with this winner of the mark, and all others are bystanders. -/
structure Staged (s : Setting) (environment : String → Option String) (c : Crowd UInt8 Caller)
    (winner : Option Nat) (looked : List Nat) : Prop where
  stage : Stage s environment c.shared (winner.map fun i => (i, c.position i)) looked
  others : ∀ j, winner ≠ some j → Bystander s environment (c.position j)

section
variable {w : Option (Nat × Caller)} {looked : List Nat} {p p' : Caller}

theorem Stage.of_isValue (h : Stage s environment b w looked) (hb : isValue b = true) :
    b = s.configured environment := by
  cases h with
  | kept => rfl
  | untouched | looking | storing => cases hb

theorem Stage.of_unresolved (h : Stage s environment b w looked) (lawful : s.Lawful)
    (hb : b = unresolved) : w = none ∧ looked = [] := by
  cases h with
  | untouched => exact ⟨rfl, rfl⟩
  | kept => exact absurd hb (ne_unresolved (lawful.configured environment))
  | looking | storing => cases hb

theorem Stage.length_le (h : Stage s environment b w looked) : looked.length ≤ 1 := by
  cases h <;> simp

/-- A caller that has looked the variable up has what is configured. -/
theorem Stage.of_mem (h : Stage s environment b w looked) (hi : i ∈ looked) :
    w = some (i, .storing (s.configured environment)) ∨
      w = some (i, .returned (s.configured environment)) := by
  cases h with
  | untouched | looking => cases hi
  | storing k => exact .inl (by rw [List.mem_singleton.1 hi])
  | kept k => exact .inr (by rw [List.mem_singleton.1 hi])

theorem Stage.of_returned {v : UInt8} (h : Stage s environment b (some (i, .returned v)) looked) :
    v = s.configured environment := by
  cases h with
  | kept => rfl

/-- A step of a bystander changes nothing, unless it marks the byte. -/
theorem Bystander.step (h : Bystander s environment p) (stage : Stage s environment b w looked)
    (m : Move s environment b p b' p') :
    b' = b ∧ Bystander s environment p' ∨ b = unresolved ∧ b' = resolving ∧ p' = .looking := by
  cases m with
  | found hb => exact .inl ⟨rfl, .returned (.inr (stage.of_isValue hb))⟩
  | marked => exact .inl ⟨rfl, .returned (.inl rfl)⟩
  | missed => exact .inl ⟨rfl, .claiming⟩
  | claimed => exact .inr ⟨rfl, rfl, rfl⟩
  | lost => exact .inl ⟨rfl, .reloading⟩
  | reloaded hb => exact .inl ⟨rfl, .returned (.inr (stage.of_isValue hb))⟩
  | unfinished => exact .inl ⟨rfl, .returned (.inl rfl)⟩
  | rested => exact .inl ⟨rfl, h⟩
  | looked | stored => cases h

/-- A step of the winner leads to the next stage. -/
theorem Stage.step (h : Stage s environment b (some (i, p)) looked)
    (m : Move s environment b p b' p') :
    Stage s environment b' (some (i, p')) (looked ++ if p = .looking then [i] else []) ∧
      Onward s environment b b' := by
  cases h with
  | looking =>
    cases m
    exact ⟨.storing i, .still⟩
  | storing =>
    cases m
    exact ⟨.kept i, .kept⟩
  | kept =>
    obtain ⟨rfl, rfl⟩ := m.of_returned
    exact ⟨.kept i, .still⟩

end

variable {c c' : Crowd UInt8 Caller} {winner : Option Nat} {looked : List Nat}

theorem Staged.start : Staged s environment fresh none [] :=
  ⟨.untouched, fun _ _ => .loading⟩

/-- Caller `i` takes a step, and the others stay where they are. -/
structure Moved (s : Setting) (environment : String → Option String) (i : Nat)
    (c c' : Crowd UInt8 Caller) : Prop where
  move : Move s environment c.shared (c.position i) c'.shared (c'.position i)
  other : ∀ j, j ≠ i → c'.position j = c.position j

theorem moved_step (s : Setting) (environment : String → Option String) (i : Nat)
    (c : Crowd UInt8 Caller) :
    Moved s environment i c (c.step (fun _ => s.advance environment) i) := by
  refine ⟨?_, fun j hj => Crowd.position_step_of_ne hj⟩
  rw [Crowd.shared_step, Crowd.position_step_self]
  exact move_advance s environment c.shared (c.position i)

theorem Staged.step_winner (h : Staged s environment c (some i) looked)
    (m : Moved s environment i c c') :
    Onward s environment c.shared c'.shared ∧ Staged s environment c' (some i)
      (looked ++ if c.position i = .looking then [i] else []) := by
  obtain ⟨hstage, honward⟩ := h.stage.step m.move
  refine ⟨honward, hstage, ?_⟩
  intro j hj
  rw [m.other j fun hji => hj (congrArg some hji.symm)]
  exact h.others j hj

theorem Staged.step_bystander (h : Staged s environment c winner looked) (lawful : s.Lawful)
    (m : Moved s environment i c c') (hi : winner ≠ some i) :
    Onward s environment c.shared c'.shared ∧ ∃ winner', Staged s environment c' winner' looked := by
  rcases (h.others i hi).step h.stage m.move with ⟨hbyte, hby⟩ | ⟨hfree, hmarked, hlooking⟩
  · rw [hbyte]
    refine ⟨.still, winner, ?_, ?_⟩
    · have hwinner : (winner.map fun k => (k, c'.position k)) =
          winner.map fun k => (k, c.position k) := by
        refine Option.map_congr fun k hk => ?_
        rw [m.other k fun hki => hi (hki ▸ hk)]
      rw [hbyte, hwinner]
      exact h.stage
    · intro j hj
      by_cases hji : j = i
      · rw [hji]
        exact hby
      · rw [m.other j hji]
        exact h.others j hj
  · -- nobody had the mark so far
    obtain ⟨hnone, rfl⟩ := h.stage.of_unresolved lawful hfree
    obtain rfl : winner = none := Option.map_eq_none_iff.1 hnone
    rw [hfree, hmarked]
    refine ⟨.marked, some i, ?_, ?_⟩
    · rw [hmarked, Option.map_some, hlooking]
      exact .looking i
    · intro j hj
      rw [m.other j fun hji => hj (congrArg some hji.symm)]
      exact h.others j nofun

theorem Staged.step (h : Staged s environment c winner looked) (lawful : s.Lawful) (i : Nat) :
    let c' := c.step (fun _ => s.advance environment) i
    Onward s environment c.shared c'.shared ∧ ∃ winner', Staged s environment c' winner'
      (looked ++ if c.position i = .looking then [i] else []) := by
  intro c'
  have m : Moved s environment i c c' := moved_step s environment i c
  by_cases hi : winner = some i
  · subst hi
    obtain ⟨honward, h'⟩ := h.step_winner m
    exact ⟨honward, some i, h'⟩
  · have hlook : c.position i ≠ .looking := by
      intro hlook
      have hby := h.others i hi
      rw [hlook] at hby
      cases hby
    rw [if_neg hlook, List.append_nil]
    exact h.step_bystander lawful m hi

theorem Staged.run (h : Staged s environment c winner looked) (lawful : s.Lawful)
    (schedule : List Nat) :
    ∃ winner', Staged s environment (c.run (fun _ => s.advance environment) schedule) winner'
      (looked ++ readers s environment c schedule) := by
  induction schedule generalizing c winner looked with
  | nil => exact ⟨winner, by simpa [readers] using h⟩
  | cons i schedule ih =>
    obtain ⟨-, winner₁, h₁⟩ := h.step lawful i
    obtain ⟨winner₂, h₂⟩ := ih h₁
    refine ⟨winner₂, ?_⟩
    rw [readers]
    split
    · next hi => simpa [hi] using h₂
    · next hi => simpa [hi] using h₂

theorem Staged.shared_run (h : Staged s environment c winner looked) (lawful : s.Lawful)
    (hkept : c.shared = s.configured environment) (later : List Nat) :
    (c.run (fun _ => s.advance environment) later).shared = s.configured environment := by
  induction later generalizing c winner looked with
  | nil => exact hkept
  | cons j later ih =>
    obtain ⟨honward, winner', h'⟩ := h.step lawful j
    exact ih h' (honward.of_configured lawful hkept)

/-- A caller whose first look at the byte comes later than that finds what is kept. -/
theorem Staged.late (h : Staged s environment c winner looked) (lawful : s.Lawful)
    (hkept : c.shared = s.configured environment) (hi : c.position i = .loading)
    {later : List Nat} (hmem : i ∈ later) :
    (c.run (fun _ => s.advance environment) later).position i =
      .returned (s.configured environment) := by
  induction later generalizing c winner looked with
  | nil => cases hmem
  | cons j later ih =>
    by_cases hij : i = j
    · subst hij
      refine Crowd.rest_run (fun _ => rfl) ?_ later
      rw [Crowd.position_step_self, hi, hkept, advance, if_pos (lawful.configured environment)]
    · obtain ⟨honward, winner', h'⟩ := h.step lawful j
      refine ih h' (honward.of_configured lawful hkept) ?_ ?_
      · rwa [Crowd.position_step_of_ne hij]
      · exact (List.mem_cons.1 hmem).resolve_left hij

theorem Staged.result (h : Staged s environment c winner looked) {v : UInt8}
    (hi : c.position i = .returned v) : v = s.standard ∨ v = s.configured environment := by
  by_cases hwinner : winner = some i
  · subst hwinner
    have hstage := h.stage
    rw [Option.map_some, hi] at hstage
    exact .inr hstage.of_returned
  · have hby := h.others i hwinner
    rw [hi] at hby
    cases hby with
    | returned h => exact h

theorem Staged.reader (h : Staged s environment c winner looked) (hi : i ∈ looked) :
    c.position i = .storing (s.configured environment) ∨
      c.position i = .returned (s.configured environment) := by
  have hat : ∀ p, (winner.map fun k => (k, c.position k)) = some (i, p) → c.position i = p := by
    intro p hp
    obtain ⟨k, -, hk⟩ := Option.map_eq_some_iff.1 hp
    obtain ⟨rfl, rfl⟩ := Prod.mk.inj hk
    rfl
  exact (h.stage.of_mem hi).imp (hat _) (hat _)

/-! ### What callers may rely on -/

/-- What callers may rely on, whatever order they have taken their steps in. At most one of them has
looked the variable up. The byte goes on from unresolved to resolving to the value configured, and
keeps it. Four steps of its own see a caller through, to the default or to the value configured. It
is the latter for the one that has looked it up, and for all that first look at the byte when it is
kept. -/
structure LookedUpOnce (s : Setting) (environment : String → Option String) (schedule : List Nat) :
    Prop where
  once : (readers s environment fresh schedule).length ≤ 1
  onward : ∀ i, Onward s environment (s.call environment schedule).shared
    (s.call environment (schedule ++ [i])).shared
  kept : (s.call environment schedule).shared = s.configured environment →
    ∀ later, (s.call environment (schedule ++ later)).shared = s.configured environment
  returned : ∀ i, 4 ≤ schedule.count i → ∃ v, (s.call environment schedule).position i = .returned v
  result : ∀ i v, (s.call environment schedule).position i = .returned v →
    (v = s.standard ∨ v = s.configured environment) ∧ v ≠ unresolved ∧ v ≠ resolving
  reader : ∀ i ∈ readers s environment fresh schedule, ∀ v,
    (s.call environment schedule).position i = .returned v → v = s.configured environment
  late : (s.call environment schedule).shared = s.configured environment →
    ∀ i, (s.call environment schedule).position i = .loading → ∀ later, i ∈ later →
      (s.call environment (schedule ++ later)).position i = .returned (s.configured environment)

theorem Lawful.lookedUpOnce (lawful : s.Lawful) (environment : String → Option String)
    (schedule : List Nat) : LookedUpOnce s environment schedule := by
  obtain ⟨winner, h⟩ := (Staged.start : Staged s environment fresh none []).run lawful schedule
  rw [List.nil_append] at h
  have happend : ∀ later, s.call environment (schedule ++ later) =
      (s.call environment schedule).run (fun _ => s.advance environment) later :=
    fun later => Crowd.run_append schedule later
  refine ⟨h.stage.length_le, fun i => ?_, fun hkept later => ?_, fun i hi => ?_, fun i v hi => ?_,
    fun i hi v hv => ?_, fun hkept i hi later hmem => ?_⟩
  · rw [happend]
    exact (h.step lawful i).1
  · rw [happend]
    exact h.shared_run lawful hkept later
  · have hleft : ((s.call environment schedule).position i).left ≤ 4 - schedule.count i :=
      Crowd.left_run Caller.left (fun b p => (move_advance s environment b p).left) schedule
    cases hp : (s.call environment schedule).position i with
    | returned v => exact ⟨v, rfl⟩
    | loading | claiming | reloading | looking | storing =>
      rw [hp, Caller.left] at hleft
      omega
  · have hv := h.result hi
    have hvalue : isValue v = true := by
      rcases hv with rfl | rfl
      · exact lawful.standard
      · exact lawful.configured environment
    exact ⟨hv, ne_unresolved hvalue, ne_resolving hvalue⟩
  · rcases h.reader hi with hp | hp
    · cases hp.symm.trans hv
    · exact Caller.returned.inj (hv.symm.trans hp)
  · rw [happend]
    exact h.late lawful hkept hi hmem

end Setting

/-- Both settings are looked up once, however their callers take their steps, and who does not look
up sees nothing of the environment. The byte that is kept stands for what the variable says, read
loosely, or for the default without one. -/
theorem settings_looked_up_once (environment : String → Option String) (schedule : List Nat) :
    Setting.LookedUpOnce Level.setting environment schedule ∧
    Setting.LookedUpOnce OnFatal.setting environment schedule ∧
    (∀ (s : Setting) (environment' : String → Option String) (b : UInt8) (p : Setting.Caller),
      p ≠ .looking → s.advance environment b p = s.advance environment' b p) ∧
    Level.ofByte (Level.setting.configured environment) =
      ((environment "FFIBENCH_LOG").map Level.ofText).getD .warn ∧
    Level.ofByte Level.setting.standard = .warn ∧
    OnFatal.ofByte (OnFatal.setting.configured environment) =
      ((environment "FFIBENCH_ON_FATAL").map OnFatal.ofText).getD .exit ∧
    OnFatal.ofByte OnFatal.setting.standard = .exit := by
  refine ⟨Setting.lawful_level.lookedUpOnce environment schedule,
    Setting.lawful_onFatal.lookedUpOnce environment schedule, fun s environment' b p hp => ?_,
    Setting.ofByte_configured_level environment, Level.ofByte_toByte .warn,
    Setting.ofByte_configured_onFatal environment, OnFatal.ofByte_toByte .exit⟩
  exact Setting.advance_of_ne_looking hp environment environment' b

-- The second caller comes while the first one looks the variable up: it returns the default.
example : let c := OnFatal.setting.call (fun _ => some "abort") [0, 0, 1, 0, 0, 2]
    c.position 0 = .returned 2 ∧ c.position 1 = .returned 1 ∧ c.position 2 = .returned 2 := by cbv

end CallBridge.Diagnostic
