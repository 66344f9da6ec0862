import CallBridge.Sort.Exchange

/-!
# Sorting a buffer

A whole buffer is sorted by walking the decision tree of its length. A comparer sees positions; one
that compares values reads the two elements named. `ascendingCalls` is the number of questions the
sort asks for the ascending order.
-/

namespace CallBridge.Sort
variable {σ ε : Type}

/-- Sort a buffer with a comparer of positions that may fail. -/
def byPosition (ask : Comparer σ ε Int32) (buffer : Array Int32) (memory : σ) :
    Walk σ ε Int32 Unit :=
  (segment 0 buffer.size).follow ask buffer memory

/-- The value standing at a position. -/
def valueAt (buffer : Array Int32) (i : Nat) : Int32 := buffer.getD i 0

/-- A comparer that reads the two elements named and answers for their values. -/
def ofValues (answer : Int32 → Int32 → σ → Int32 × σ) : Comparer σ ε Int32 :=
  fun left right buffer memory =>
    let (a, memory) := answer (valueAt buffer left) (valueAt buffer right) memory
    (.ok a, memory)

/-- Sort a buffer with a comparer of values, which cannot fail. -/
def byValue (answer : Int32 → Int32 → σ → Int32 × σ) (buffer : Array Int32) (memory : σ) :
    Array Int32 × σ :=
  let walk : Walk σ Empty Int32 Unit := byPosition (ofValues answer) buffer memory
  (walk.buffer, walk.memory)

/-- The three-way answer of ascending order. -/
def ascending (a b : Int32) : Int32 :=
  if a < b then -1 else if a = b then 0 else 1

/-- The comparer of ascending order that counts its questions. -/
def countingAscending : Comparer Nat ε Int32 :=
  ofValues fun a b asked => (ascending a b, asked + 1)

/-- A buffer put in ascending order, and the number of questions the sort asks for that. -/
def ascendingWalk (buffer : Array Int32) : Array Int32 × Nat :=
  byValue (fun a b asked => (ascending a b, asked + 1)) buffer 0

/-- The number of questions the sort asks to put a buffer in ascending order. -/
def ascendingCalls (buffer : Array Int32) : Nat := (ascendingWalk buffer).2

/-- Sort the first `elements` values of a buffer through a comparison function handed over a C
boundary. A missing function, a missing buffer or a count that is not positive sorts nothing. -/
def bounded (ask : Option (Comparer σ Empty Int32)) (elements : Int) (buffer : Option (Array Int32))
    (memory : σ) : Option (Array Int32) × σ :=
  match ask, buffer with
  | some ask, some buffer =>
    let walk := (segment 0 elements.toNat).follow ask buffer memory
    (some walk.buffer, walk.memory)
  | _, _ => (buffer, memory)

end CallBridge.Sort
