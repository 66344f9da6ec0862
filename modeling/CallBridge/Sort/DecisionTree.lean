/-!
# Decision trees

A sort that never looks at its elements is a tree: it asks for the order of the elements standing
at two positions and branches on the answer, exchanges two positions, or ends with a result.
`DecisionTree.follow` walks such a tree over a buffer with a comparer that may remember what it was
asked and may fail; a failure ends the walk and leaves the buffer as it stands.

Only the sign of an answer chooses a branch, so everything about the course of a walk is a fact
about the tree.
-/

namespace CallBridge

/-- Ask for the order of two positions, exchange two positions, or end with a result. -/
inductive DecisionTree (ρ : Type) where
  | done (result : ρ)
  | exchange (i j : Nat) (next : DecisionTree ρ)
  | compare (left right : Nat) (next : Ordering → DecisionTree ρ)

/-- A comparer answers for two positions of a buffer from what it remembers, or fails, and remembers
the question either way. -/
abbrev Comparer (σ ε α : Type) := Nat → Nat → Array α → σ → Except ε Int32 × σ

/-- A walk's end: its result or the comparer's failure, the buffer as left and the last memory. -/
structure Walk (σ ε α ρ : Type) where
  result : Except ε ρ
  buffer : Array α
  memory : σ

namespace DecisionTree
variable {σ ε α ρ τ : Type}

/-- The order an answer stands for: below zero before, zero equal, above zero after. -/
def sign (answer : Int32) : Ordering :=
  if answer < 0 then .lt else if answer = 0 then .eq else .gt

/-- Continue with `f` where the tree ends. -/
def bind : DecisionTree ρ → (ρ → DecisionTree τ) → DecisionTree τ
  | done r, f => f r
  | exchange i j next, f => exchange i j (next.bind f)
  | compare left right next, f => compare left right fun o => (next o).bind f

instance : Monad DecisionTree where
  pure := done
  bind := bind

/-- Walk the tree over a buffer, asking `ask` for every order. -/
def follow (ask : Comparer σ ε α) : DecisionTree ρ → Array α → σ → Walk σ ε α ρ
  | done r, buffer, memory => ⟨.ok r, buffer, memory⟩
  | exchange i j next, buffer, memory => next.follow ask (buffer.swapIfInBounds i j) memory
  | compare left right next, buffer, memory =>
    match ask left right buffer memory with
    | (.ok answer, memory) => (next (sign answer)).follow ask buffer memory
    | (.error e, memory) => ⟨.error e, buffer, memory⟩

@[simp] theorem done_bind (r : ρ) (f : ρ → DecisionTree τ) : (done r).bind f = f r := rfl

@[simp] theorem follow_done (ask : Comparer σ ε α) (r : ρ) (buffer : Array α) (memory : σ) :
    (done r).follow ask buffer memory = ⟨.ok r, buffer, memory⟩ := rfl

/-- Walking a tree and then its continuation: a failure of the first walk is the end of both. -/
theorem follow_bind (ask : Comparer σ ε α) (t : DecisionTree ρ) (f : ρ → DecisionTree τ)
    (buffer : Array α) (memory : σ) :
    (t.bind f).follow ask buffer memory =
      match t.follow ask buffer memory with
      | ⟨.ok r, buffer, memory⟩ => (f r).follow ask buffer memory
      | ⟨.error e, buffer, memory⟩ => ⟨.error e, buffer, memory⟩ := by
  induction t generalizing buffer memory with
  | done r => rfl
  | exchange i j next ih => exact ih ..
  | compare left right next ih =>
    simp only [bind, follow]
    split
    · exact ih ..
    · rfl

end DecisionTree
end CallBridge
