/-!
# Sorting a list by runs

A stable sort of a list for an order that is given as `less`. Short lists are sorted by insertion. A
longer one is cut into runs: ascending or strictly descending stretches that are there already, if
they are long enough, and stretches in between. Neighbouring runs are joined in the order of a
balanced tree; stretches stay unsorted while they are joined with each other only, and are sorted by
partition around pivots when a sorted run meets them. Few elements are sorted in two halves which
are merged from both ends at once.

For an order every stable sort gives the same list. When `less` is none, because some elements are
neither less nor greater than any other, the course of the sort decides, and a merge from both ends
may find out that its halves do not meet: then there is no result.
-/

namespace CallBridge.Runs
variable {α : Type} (less : α → α → Bool)

/-! ### Insertion -/

/-- Put an element behind every one that is not greater; the last element is in front. -/
def insertFromBack (x : α) : List α → List α
  | [] => [x]
  | y :: ys => if less x y then y :: insertFromBack x ys else x :: y :: ys

/-- Insert elements one after the other into sorted ones. -/
def insertAll (sorted more : List α) : List α :=
  (more.foldl (fun back x => insertFromBack less x back) sorted.reverse).reverse

def byInsertion (xs : List α) : List α := insertAll less [] xs

/-! ### Merging -/

/-- Merge from the front: of two elements the right one goes first only if it is less. -/
def merge : List α → List α → List α
  | [], ys => ys
  | x :: xs, [] => x :: xs
  | x :: xs, y :: ys =>
    if less y x then y :: merge (x :: xs) ys else x :: merge xs (y :: ys)

/-- Merge from the back lists whose last elements are in front: of two elements the left one goes
last only if the right one is less. -/
def mergeBack : List α → List α → List α
  | [], ys => ys
  | x :: xs, [] => x :: xs
  | x :: xs, y :: ys =>
    if less y x then x :: mergeBack xs (y :: ys) else y :: mergeBack (x :: xs) ys

/-- Merge two sorted lists, along the shorter one. -/
def join (xs ys : List α) : List α :=
  if xs.isEmpty ∨ ys.isEmpty then xs ++ ys
  else if xs.length ≤ ys.length then merge less xs ys
  else (mergeBack less xs.reverse ys.reverse).reverse

/-- The first elements of a merge from the front, and how many of them come from the left. -/
def mergeSteps : (steps : Nat) → List α → List α → List α × Nat
  | steps + 1, x :: xs, y :: ys =>
    if less y x then
      let (merged, n) := mergeSteps steps (x :: xs) ys
      (y :: merged, n)
    else
      let (merged, n) := mergeSteps steps xs (y :: ys)
      (x :: merged, n + 1)
  | _, _, _ => ([], 0)

/-- The last elements of a merge from the back, the very last in front, and how many of them come
from the left. -/
def mergeBackSteps : (steps : Nat) → List α → List α → List α × Nat
  | steps + 1, x :: xs, y :: ys =>
    if less y x then
      let (merged, n) := mergeBackSteps steps xs (y :: ys)
      (x :: merged, n + 1)
    else
      let (merged, n) := mergeBackSteps steps (x :: xs) ys
      (y :: merged, n)
  | _, _, _ => ([], 0)

/-- Merge two halves from both ends at once, of which the right one may be longer by one. There is
no result if the two merges do not meet. -/
def mergeHalves (left right : List α) : Option (List α) :=
  let half := left.length
  let (front, i) := mergeSteps less half left right
  let (back, j) := mergeBackSteps less half left.reverse right.reverse
  if left.length = right.length then
    if i + j = half then some (front ++ back.reverse) else none
  else
    let middle := if i + j < half then left.drop i else right.drop (half - i)
    let met := if i + j < half then i + j + 1 = half else i + j = half
    if met then some (front ++ middle.take 1 ++ back.reverse) else none

/-! ### Few elements -/

/-- Sort four elements with five questions; any other number of them is left alone. -/
def sortFour : List α → List α
  | [p, q, r, s] =>
    let (a, b) := if less q p then (q, p) else (p, q)
    let (c, d) := if less s r then (s, r) else (r, s)
    let (least, x) := if less c a then (c, a) else (a, c)
    let (greatest, y) := if less d b then (b, d) else (d, b)
    let unknown : α × α :=
      if less c a then (if less d b then (x, y) else (x, b))
      else if less d b then (c, y) else (b, c)
    let (lo, hi) := if less unknown.2 unknown.1 then (unknown.2, unknown.1) else unknown
    [least, lo, hi, greatest]
  | xs => xs

/-- Sort eight elements. -/
def sortEight (xs : List α) : Option (List α) :=
  mergeHalves less (sortFour less (xs.take 4)) (sortFour less (xs.drop 4))

/-- Sort the first of a half's elements by a plan that hangs on the number of all, and insert the
others. -/
def sortHalf (all : Nat) (xs : List α) : Option (List α) := do
  if 16 ≤ all then
    return insertAll less (← sortEight less (xs.take 8)) (xs.drop 8)
  else if 8 ≤ all then
    return insertAll less (sortFour less (xs.take 4)) (xs.drop 4)
  else return insertAll less (xs.take 1) (xs.drop 1)

/-- The most elements that are sorted in two halves. -/
def fewest : Nat := 32

/-- Sort few elements. -/
def sortFew (xs : List α) : Option (List α) := do
  if xs.length < 2 then return xs
  else
    let half := xs.length / 2
    mergeHalves less (← sortHalf less xs.length (xs.take half))
      (← sortHalf less xs.length (xs.drop half))

/-! ### Joining runs -/

/-- A stretch of the list. -/
structure Run (α : Type) where
  isSorted : Bool
  elements : List α

/-- The length of the ascending or strictly descending stretch in front, and whether it descends. -/
def stretch : List α → Nat × Bool
  | x :: y :: rest =>
    let descends := less y x
    let rec follow (last : α) : List α → Nat
      | [] => 0
      | z :: zs => if less z last = descends then follow z zs + 1 else 0
    (follow y rest + 2, descends)
  | xs => (xs.length, false)

/-- About the square root. -/
def rootOf (n : Nat) : Nat :=
  let shift := (n.log2 + 1) / 2
  (Nat.pow 2 shift + n / Nat.pow 2 shift) / 2

/-- The length from which on a stretch in a list counts as a run. -/
def goodLength (n : Nat) : Nat := if n ≤ 4096 then min (n - n / 2) 64 else rootOf n

/-- How deep the node between two neighbouring runs is in the tree over all `n` elements: the number
of leading binary digits that the middles of the two runs have in common. -/
def depthBetween (n start middle stop : Nat) : Nat :=
  let scale := (Nat.pow 2 62 + n - 1) / n
  let difference := (scale * (start + middle)) ^^^ (scale * (middle + stop))
  if difference = 0 then 64 else 63 - difference.log2

/-- Join two neighbouring runs. Two unsorted ones are only put together. -/
def joinRuns (sortRun : List α → Option (List α)) (left right : Run α) : Option (Run α) := do
  if left.isSorted || right.isSorted then
    let xs ← if left.isSorted then some left.elements else sortRun left.elements
    let ys ← if right.isSorted then some right.elements else sortRun right.elements
    return ⟨true, join less xs ys⟩
  else return ⟨false, left.elements ++ right.elements⟩

/-- Join the last run with those before it that are at least as deep; the first of all stays
apart. -/
def collapse (sortRun : List α → Option (List α)) (depth : Nat) :
    List (Run α × Nat) → Run α → Option (List (Run α × Nat) × Run α)
  | (run, d) :: first :: rest, last =>
    if depth ≤ d then do
      collapse sortRun depth (first :: rest) (← joinRuns less sortRun run last)
    else some ((run, d) :: first :: rest, last)
  | stack, last => some (stack, last)

/-- Cut off the runs of what is left and join them. `room` bounds their number. -/
def joinAll (sortRun : List α → Option (List α))
    (cut : List α → Option (Run α)) (n : Nat) :
    (room : Nat) → List (Run α × Nat) → Run α → List α → Option (Run α)
  | 0, _, last, _ => some last
  | room + 1, stack, last, rest => do
    if rest.isEmpty then
      let (_, last) ← collapse less sortRun 0 stack last
      return last
    else
      let next ← cut rest
      let start := n - rest.length
      let depth := depthBetween n (start - last.elements.length) start
        (start + next.elements.length)
      let (stack, last) ← collapse less sortRun depth stack last
      joinAll sortRun cut n room ((last, depth) :: stack) next
        (rest.drop next.elements.length)

/-- The run in front: a stretch that is long enough, or else what `otherwise` makes of as much. -/
def cutRun (good : Nat) (otherwise : List α → Option (Run α)) (xs : List α) :
    Option (Run α) :=
  let (length, descends) := stretch less xs
  if good ≤ xs.length ∧ good ≤ length then
    let front := xs.take length
    some ⟨true, if descends then front.reverse else front⟩
  else otherwise xs

/-- Sort with runs that are sorted as they are cut. -/
def sortEagerly (xs : List α) : Option (List α) := do
  let cut := cutRun less (goodLength xs.length) fun xs => do
    return ⟨true, ← sortFew less (xs.take fewest)⟩
  return (← joinAll less some cut xs.length (xs.length + 1) [] ⟨true, []⟩ xs).elements

/-! ### Partition -/

/-- The place of the median of three elements given with their places. -/
def median (a b c : α × Nat) : α × Nat :=
  let x := less a.1 b.1
  if x = less a.1 c.1 then
    if less b.1 c.1 = x then b else c
  else a

/-- An element near the median of `n` elements each from three places on, by medians of medians. -/
def medianOfMany (look : Nat → α × Nat) : (depth n a b c : Nat) → α × Nat
  | depth + 1, n, a, b, c =>
    if 64 ≤ n * 8 then
      let m := n / 8
      let inner (start : Nat) := medianOfMany look depth m start (start + m * 4) (start + m * 7)
      median less (inner a) (inner b) (inner c)
    else median less (look a) (look b) (look c)
  | 0, _, a, b, c => median less (look a) (look b) (look c)

/-- The pivot of a list that starts with `first`, with its place. -/
def pivot (first : α) (xs : Array α) : α × Nat :=
  let look (i : Nat) : α × Nat := (xs.getD i first, i)
  let m := xs.size / 8
  if xs.size < 64 then median less (look 0) (look (m * 4)) (look (m * 7))
  else medianOfMany less look xs.size m 0 (m * 4) (m * 7)

/-- The elements that pass and those that do not; the one at a place is not asked. -/
def partition (passes : α → Bool) (place : Nat) (there : Bool) (xs : List α) :
    List α × List α :=
  let marked := xs.zipIdx.map fun (x, i) => (x, if i = place then there else passes x)
  ((marked.filter (·.2)).map (·.1), (marked.filter (!·.2)).map (·.1))

/-- Sort by partition. A pivot that is not greater than the one the list lies to the right of, or
than any element, is put in front with all its equals. After `limit` partitions the rest is sorted
with runs. -/
def byPartition : (limit : Nat) → (before : Option α) → List α → Option (List α)
  | _, _, [] => some []
  | limit, before, x :: xs =>
    let all := x :: xs
    if all.length ≤ fewest then sortFew less all
    else
      match limit with
      | 0 => sortEagerly less all
      | limit + 1 => do
        let (p, place) := pivot less x all.toArray
        let (lower, upper) := partition (fun y => less y p) place false all
        if before.any (fun q => !less q p) || lower.isEmpty then
          let (lower, upper) := partition (fun y => !less p y) place true all
          return lower ++ (← byPartition limit none upper)
        else
          let upper ← byPartition limit (some p) upper
          return (← byPartition limit before lower) ++ upper

/-- Sort by partition with a limit fit for the length. -/
def sortRun (xs : List α) : Option (List α) := byPartition less (2 * xs.length.log2) none xs

/-! ### The whole -/

/-- The longest list that is sorted by insertion. -/
def shortest : Nat := 20

/-- Sort with runs that are left unsorted as long as they may be. -/
def sortLazily (xs : List α) : Option (List α) := do
  let good := goodLength xs.length
  let cut := cutRun less good fun xs => some ⟨false, xs.take good⟩
  let all ← joinAll less (sortRun less) cut xs.length (xs.length + 1) [] ⟨true, []⟩ xs
  if all.isSorted then return all.elements else sortRun less all.elements

def sort (xs : List α) : Option (List α) :=
  if xs.length ≤ shortest then some (byInsertion less xs)
  else if xs.length ≤ 2 * fewest then sortEagerly less xs
  else sortLazily less xs

end CallBridge.Runs
