/-!
# Interleavings

Activities that share a state, each at a position of its own, take atomic steps in any order. A step
looks at the shared state and at the position of the one that takes it, and changes these two only.
There are as many activities as natural numbers; one that takes no step might as well not be there,
so a schedule of finite length is a run of any number of them.
-/

namespace CallBridge

/-- The next step of an activity, from the shared state and its position. -/
abbrev Conduct (σ π : Type) := σ → π → σ × π

/-- Activities around a shared state. -/
structure Crowd (σ π : Type) where
  shared : σ
  position : Nat → π

namespace Crowd
variable {σ π : Type}

/-- One activity takes a step. -/
def step (conduct : Nat → Conduct σ π) (c : Crowd σ π) (i : Nat) : Crowd σ π :=
  let (shared, here) := conduct i c.shared (c.position i)
  { shared, position := fun j => if j = i then here else c.position j }

/-- The activities of a schedule take one step each, in its order. -/
def run (conduct : Nat → Conduct σ π) (c : Crowd σ π) (schedule : List Nat) : Crowd σ π :=
  schedule.foldl (step conduct) c

variable {conduct : Nat → Conduct σ π} {c : Crowd σ π}

@[simp] theorem shared_step (i : Nat) :
    (c.step conduct i).shared = (conduct i c.shared (c.position i)).1 := rfl

@[simp] theorem position_step_self (i : Nat) :
    (c.step conduct i).position i = (conduct i c.shared (c.position i)).2 := by
  simp [step]

/-- A step moves nobody else. -/
theorem position_step_of_ne {i j : Nat} (h : j ≠ i) :
    (c.step conduct i).position j = c.position j := by
  simp [step, h]

@[simp] theorem run_nil : c.run conduct [] = c := rfl

@[simp] theorem run_cons (i : Nat) (s : List Nat) :
    c.run conduct (i :: s) = (c.step conduct i).run conduct s := rfl

theorem run_append (s t : List Nat) : c.run conduct (s ++ t) = (c.run conduct s).run conduct t :=
  List.foldl_append

theorem run_induction {Keeps : Crowd σ π → Prop} (start : Keeps c)
    (step : ∀ c i, Keeps c → Keeps (c.step conduct i)) (s : List Nat) :
    Keeps (c.run conduct s) := by
  induction s generalizing c with
  | nil => exact start
  | cons i s ih => exact ih (step c i start)

/-- Who takes no step stays where it is. -/
theorem position_run_of_notMem {i : Nat} {s : List Nat} (h : i ∉ s) :
    (c.run conduct s).position i = c.position i := by
  induction s generalizing c with
  | nil => rfl
  | cons j s ih =>
    rw [List.mem_cons, not_or] at h
    exact (ih h.2).trans (position_step_of_ne h.1)

/-- Who has come to rest at a place stays there. -/
theorem rest_step {i j : Nat} {here : π} (rests : ∀ shared, (conduct j shared here).2 = here)
    (h : c.position j = here) : (c.step conduct i).position j = here := by
  by_cases hji : j = i
  · subst hji
    rw [position_step_self, h, rests]
  · rwa [position_step_of_ne hji]

theorem rest_run {j : Nat} {here : π} (rests : ∀ shared, (conduct j shared here).2 = here)
    (h : c.position j = here) (s : List Nat) : (c.run conduct s).position j = here :=
  @run_induction _ _ _ c (fun c => c.position j = here) h (fun _ _ h => rest_step rests h) s

/-- Every step of its own brings an activity closer to its end, whatever the others do. -/
theorem left_run (left : π → Nat) {i : Nat}
    (h : ∀ shared here, left (conduct i shared here).2 ≤ left here - 1) (s : List Nat) :
    left ((c.run conduct s).position i) ≤ left (c.position i) - s.count i := by
  induction s generalizing c with
  | nil => exact Nat.le_refl _
  | cons j s ih =>
    have hrest : left ((c.run conduct (j :: s)).position i) ≤ _ := ih (c := c.step conduct j)
    by_cases hij : i = j
    · subst hij
      have hstep := h c.shared (c.position i)
      rw [position_step_self] at hrest
      rw [List.count_cons_self]
      omega
    · rw [position_step_of_ne hij] at hrest
      rwa [List.count_cons_of_ne (Ne.symm hij)]

end Crowd
end CallBridge
