import CallBridge.Sort.DecisionTree

/-!
# Partition-exchange sort

The sort of the segment of `len` positions from `lo` on, as a decision tree. A segment of two or
more is split around its middle element: the pivot is parked at the front, two scans close in on
each other over the unsettled zone, and the pivot is put between the two sides. The smaller side is
sorted first.

The unsettled zone is given by the number `p` of elements settled in front and the number `r` of
elements not yet settled: it holds the positions `lo + p + 1` to `lo + p + r`.
-/

namespace CallBridge.Sort

mutual

/-- Settle elements from the front while they come before the pivot. -/
def fromFront (lo len p : Nat) : (r : Nat) → p + r < len → DecisionTree (Fin len)
  | 0, h => .exchange lo (lo + p) (.done ⟨p, h⟩)
  | r + 1, h => .compare (lo + p + 1) lo fun
    | .lt => fromFront lo len (p + 1) r (by omega)
    | _ => fromBack lo len p (r + 1) h
termination_by r => (r, 1)

/-- Settle elements from the back while they come after the pivot. The element in front is known not
to come before the pivot, so a zone of one is settled; of a longer one the two ends are
exchanged. -/
def fromBack (lo len p : Nat) : (r : Nat) → p + r < len → DecisionTree (Fin len)
  | 0, h => .exchange lo (lo + p) (.done ⟨p, h⟩)
  | 1, h => .exchange lo (lo + p) (.done ⟨p, by omega⟩)
  | r + 2, h => .compare (lo + p + r + 2) lo fun
    | .gt => fromBack lo len p (r + 1) (by omega)
    | _ => .exchange (lo + p + 1) (lo + p + r + 2) (fromFront lo len (p + 1) r (by omega))
termination_by r => (r, 0)

end

/-- Split a segment around its middle element; the result is the pivot's place in the segment. -/
def split (lo len : Nat) (h : 1 < len) : DecisionTree (Fin len) :=
  .exchange lo (lo + len / 2) (fromFront lo len 0 (len - 1) (by omega))

/-- Sort the segment of `len` positions from `lo` on, the smaller side of each split first. -/
def segment (lo len : Nat) : DecisionTree Unit :=
  if h : 1 < len then
    (split lo len h).bind fun pivot =>
      if pivot < len - 1 - pivot then
        (segment lo pivot).bind fun _ => segment (lo + pivot + 1) (len - 1 - pivot)
      else
        (segment (lo + pivot + 1) (len - 1 - pivot)).bind fun _ => segment lo pivot
  else
    .done ()
termination_by len
decreasing_by all_goals omega

/-- A segment of fewer than two positions is sorted. -/
theorem segment_of_le_one {lo len : Nat} (h : len ≤ 1) : segment lo len = .done () := by
  rw [segment, dif_neg (by omega)]

end CallBridge.Sort
