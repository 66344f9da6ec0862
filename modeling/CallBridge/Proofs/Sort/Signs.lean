import CallBridge.Proofs.Sort.Inquiry
import CallBridge.Proofs.Sort.Tokens
import CallBridge.Proofs.Sort.Tracked

/-!
# What the signs of the answers decide

A walk branches on the signs of the answers and looks at nothing else. So two walks of one tree that
are answered alike, call by call, ask for the same positions and move the elements in the same way,
whatever the elements are, however large the answers, and also if both fail at the same question
(`follow_alike`). Of the sort this gives `signs_decide`: the order in which it leaves the elements
(`order`) is the same, answers may be scaled as long as their signs stay, and sorting what a map
makes of the elements is mapping what the sort makes of them.
-/

namespace CallBridge

namespace Inquiry
variable {ε α β : Type}

/-- The two positions asked about. -/
def place (q : Inquiry ε α) : Nat × Nat := (q.left, q.right)

/-- The sign of the answer, if there was one. -/
def sign? (q : Inquiry ε α) : Option Ordering := q.outcome.toOption.map DecisionTree.sign

/-- The question as it looks when the elements are seen through `f`. -/
def map (f : β → α) (q : Inquiry ε β) : Inquiry ε α :=
  ⟨q.left, q.right, q.buffer.map f, q.outcome⟩

end Inquiry

/-- Two runs are answered alike: as far as both go, each call brings answers of the same sign, or
fails in both. -/
def AnsweredAlike {ε ε' α β : Type} (made : List (Inquiry ε α)) (made' : List (Inquiry ε' β)) :
    Prop :=
  ∀ (k : Nat) q q', made[k]? = some q → made'[k]? = some q' → q.sign? = q'.sign?

section
variable {ε ε' α β α' β' : Type} {q : Inquiry ε α} {q' : Inquiry ε' β}
  {made : List (Inquiry ε α)} {made' : List (Inquiry ε' β)}

theorem answeredAlike_cons :
    AnsweredAlike (q :: made) (q' :: made') ↔ q.sign? = q'.sign? ∧ AnsweredAlike made made' := by
  constructor
  · intro h
    exact ⟨h 0 q q' rfl rfl, fun k => h (k + 1)⟩
  · rintro ⟨hfirst, hrest⟩ k p p' hp hp'
    cases k with
    | zero =>
      obtain rfl := Option.some.inj hp
      obtain rfl := Option.some.inj hp'
      exact hfirst
    | succ k => exact hrest k p p' hp hp'

theorem answeredAlike_map (f : α → α') (f' : β → β') :
    AnsweredAlike (made.map (·.map f)) (made'.map (·.map f')) ↔ AnsweredAlike made made' := by
  constructor
  · intro h k q q' hq hq'
    have hmap : (made.map (·.map f))[k]? = some (q.map f) := by rw [List.getElem?_map, hq]; rfl
    have hmap' : (made'.map (·.map f'))[k]? = some (q'.map f') := by
      rw [List.getElem?_map, hq']; rfl
    exact h k _ _ hmap hmap'
  · intro h k p p' hp hp'
    rw [List.getElem?_map] at hp hp'
    obtain ⟨q, hq, rfl⟩ := Option.map_eq_some_iff.1 hp
    obtain ⟨q', hq', rfl⟩ := Option.map_eq_some_iff.1 hp'
    exact h k q q' hq hq'

end

namespace Comparer

/-- The comparer with its answers made larger or smaller. -/
def rescaled {σ ε α : Type} (g : Int32 → Int32) (ask : Comparer σ ε α) : Comparer σ ε α :=
  fun left right buffer memory =>
    let (outcome, memory) := ask left right buffer memory
    (outcome.map g, memory)

end Comparer

namespace DecisionTree
variable {σ τ ε ε' α β γ ρ : Type} {ask : Comparer σ ε α} {ask' : Comparer τ ε' β}

theorem inquiries_comap (ask : Comparer σ ε α) (f : β → α) (t : DecisionTree ρ) (buffer : Array β)
    (memory : σ) :
    t.inquiries ask (buffer.map f) memory =
      (t.inquiries (ask.comap f) buffer memory).map (·.map f) := by
  induction t generalizing buffer memory with
  | done r => rfl
  | exchange i j next ih =>
    rw [inquiries_exchange, inquiries_exchange, ← map_swapIfInBounds]
    exact ih ..
  | compare left right next ih =>
    rw [inquiries_compare, inquiries_compare, List.map_cons]
    simp only [Comparer.comap]
    rcases ask left right (buffer.map f) memory with ⟨e | answer, memory⟩
    · rfl
    · simp only [ih]
      rfl

/-- Walks that are answered alike ask for the same positions and move the same way what `f` and `f'`
show of the elements. -/
theorem follow_alike {f : α → γ} {f' : β → γ} (t : DecisionTree ρ) {buffer : Array α}
    {buffer' : Array β} (hbuffer : buffer.map f = buffer'.map f') {m : σ} {m' : τ}
    (h : AnsweredAlike (t.inquiries ask buffer m) (t.inquiries ask' buffer' m')) :
    (t.inquiries ask buffer m).map Inquiry.place =
        (t.inquiries ask' buffer' m').map Inquiry.place ∧
      (t.follow ask buffer m).buffer.map f = (t.follow ask' buffer' m').buffer.map f' ∧
      (t.follow ask buffer m).result.toOption = (t.follow ask' buffer' m').result.toOption := by
  induction t generalizing buffer buffer' m m' with
  | done r => exact ⟨rfl, hbuffer, rfl⟩
  | exchange i j next ih =>
    refine ih ?_ h
    rw [map_swapIfInBounds, map_swapIfInBounds, hbuffer]
  | compare left right next ih =>
    rw [inquiries_compare, inquiries_compare, answeredAlike_cons] at h
    rw [inquiries_compare, inquiries_compare]
    obtain ⟨hsign, hrest⟩ := h
    simp only [follow]
    rcases ha : ask left right buffer m with ⟨e | answer, m₁⟩ <;>
      rcases ha' : ask' left right buffer' m' with ⟨e' | answer', m₁'⟩ <;>
      simp only [ha, ha'] at hsign hrest
    · exact ⟨rfl, hbuffer, rfl⟩
    · cases hsign
    · cases hsign
    · -- The same branch is taken.
      have hbranch : sign answer' = sign answer := (Option.some.inj hsign).symm
      rw [hbranch] at hrest
      obtain ⟨hplaces, hmoved, hresult⟩ := ih _ hbuffer hrest
      simp only [hbranch]
      refine ⟨?_, hmoved, hresult⟩
      rw [List.map_cons, List.map_cons, hplaces]
      rfl

/-- Comparers that always answer with the same sign are asked about the same positions. -/
theorem places_of_simulates {ask' : Comparer τ ε' α} {n : Nat} {R : σ → τ → Prop}
    (h : ∀ left right buffer m w, left < n → right < n → buffer.size = n → R m w →
      ∃ a m' a' w', ask left right buffer m = (.ok a, m') ∧
        ask' left right buffer w = (.ok a', w') ∧ sign a = sign a' ∧ R m' w')
    {t : DecisionTree ρ} (ht : t.Within 0 n) {buffer : Array α} (hn : buffer.size = n) {m : σ}
    {w : τ} (hR : R m w) :
    (t.inquiries ask buffer m).map Inquiry.place =
      (t.inquiries ask' buffer w).map Inquiry.place := by
  have hlogs : ∀ left right (buffer : Array α) (x : σ × List (Inquiry ε α))
      (y : τ × List (Inquiry ε' α)), left < n → right < n → buffer.size = n →
      (R x.1 y.1 ∧ x.2.map Inquiry.place = y.2.map Inquiry.place) →
      ∃ a x' a' y', ask.logging left right buffer x = (.ok a, x') ∧
        ask'.logging left right buffer y = (.ok a', y') ∧ sign a = sign a' ∧
        (R x'.1 y'.1 ∧ x'.2.map Inquiry.place = y'.2.map Inquiry.place) := by
    rintro left right buffer ⟨m, log⟩ ⟨w, log'⟩ hl hr hn ⟨hR, hlog⟩
    obtain ⟨a, m', a', w', ha, ha', hsign, hR'⟩ := h left right buffer m w hl hr hn hR
    refine ⟨a, (m', log ++ [⟨left, right, buffer, .ok a⟩]), a',
      (w', log' ++ [⟨left, right, buffer, .ok a'⟩]), ?_, ?_, hsign, hR', ?_⟩
    · simp only [Comparer.logging, ha]
    · simp only [Comparer.logging, ha']
    · simp only [List.map_append, hlog]
      rfl
  exact (follow_simulates hlogs ht hn (m := (m, [])) (w := (w, [])) ⟨hR, rfl⟩).2.2.2

theorem follow_rescaled (g : Int32 → Int32) (t : DecisionTree ρ) (buffer : Array α) (memory : σ)
    (h : ∀ q ∈ t.inquiries ask buffer memory, ∀ a, q.outcome = .ok a → sign (g a) = sign a) :
    t.follow (ask.rescaled g) buffer memory = t.follow ask buffer memory ∧
      t.inquiries (ask.rescaled g) buffer memory =
        (t.inquiries ask buffer memory).map fun q => { q with outcome := q.outcome.map g } := by
  induction t generalizing buffer memory with
  | done r => exact ⟨rfl, rfl⟩
  | exchange i j next ih => exact ih _ _ h
  | compare left right next ih =>
    rw [inquiries_compare, List.forall_mem_cons] at h
    rw [inquiries_compare, inquiries_compare, List.map_cons]
    simp only [follow, Comparer.rescaled]
    obtain ⟨hfirst, hrest⟩ := h
    rcases ha : ask left right buffer memory with ⟨e | answer, memory'⟩
    · exact ⟨rfl, rfl⟩
    · simp only [ha] at hfirst hrest
      have hsign : sign (g answer) = sign answer := hfirst answer rfl
      obtain ⟨hwalk, hasked⟩ := ih (sign answer) buffer memory' hrest
      simp only [Except.map, hsign]
      exact ⟨hwalk, congrArg (List.cons _) hasked⟩

end DecisionTree
end CallBridge

namespace CallBridge.Sort
open DecisionTree

variable {σ τ ε ε' : Type}

/-! ### The order in which a sort leaves the elements -/

/-- The elements, by the positions where they stand before the sort, as it leaves them. -/
def order (ask : Comparer σ ε Int32) (buffer : Array Int32) (memory : σ) : Array Nat :=
  (tracked ask buffer memory).buffer.map (·.2)

/-- The sort puts the elements in this order. -/
structure Arranges (order : Array Nat) (buffer sorted : Array Int32) : Prop where
  all : order.toList.Perm (List.range buffer.size)
  sorted : sorted = order.map (valueAt buffer)

section
variable {ask : Comparer σ ε Int32} {ask' : Comparer τ ε' Int32} {buffer buffer' : Array Int32}
  {m : σ} {m' : τ}

theorem order_arranges : Arranges (order ask buffer m) buffer (byPosition ask buffer m).buffer := by
  refine ⟨?_, ?_⟩
  · rw [order, Array.toList_map, List.range_eq_range', ← Array.toList_range',
      ← Array.zipIdx_map_snd, Array.toList_map]
    exact tracked_perm.toList.map _
  · rw [byPosition_eq_tracked, order, Array.map_map]
    refine Array.map_congr_left fun x hx => ?_
    have hmem : x ∈ buffer.zipIdx := tracked_perm.mem_iff.1 hx
    have hat : buffer[x.2]? = some x.1 := by
      have := Array.mem_zipIdx_iff_getElem?.1 hmem
      simpa using this
    rw [Function.comp_apply, valueAt, Array.getD_eq_getD_getElem?, hat, Option.getD_some]

theorem calls_zipIdx :
    calls ask buffer m =
      ((segment 0 buffer.size).inquiries (ask.comap (·.1)) buffer.zipIdx m).map (·.map (·.1)) := by
  rw [calls, ← inquiries_comap, Array.zipIdx_map_fst]

/-- Runs that are answered alike name the same positions, leave the elements in the same order and
fail together. -/
theorem order_of_alike (hsize : buffer.size = buffer'.size)
    (h : AnsweredAlike (calls ask buffer m) (calls ask' buffer' m')) :
    (calls ask buffer m).map Inquiry.place = (calls ask' buffer' m').map Inquiry.place ∧
      order ask buffer m = order ask' buffer' m' ∧
      (byPosition ask buffer m).result.toOption = (byPosition ask' buffer' m').result.toOption := by
  have hnumbers : buffer.zipIdx.map (·.2) = buffer'.zipIdx.map (·.2) := by
    rw [Array.zipIdx_map_snd, Array.zipIdx_map_snd, hsize]
  have hplace : ∀ {κ : Type} (made : List (Inquiry κ (Int32 × Nat))),
      (made.map (·.map (·.1))).map Inquiry.place = made.map Inquiry.place := by
    intro κ made
    rw [List.map_map]
    rfl
  rw [calls_zipIdx, calls_zipIdx, answeredAlike_map, ← hsize] at h
  obtain ⟨hplaces, horder, hresult⟩ := follow_alike (segment 0 buffer.size) hnumbers h
  refine ⟨?_, ?_, ?_⟩
  · rw [calls_zipIdx, calls_zipIdx, hplace, hplace, ← hsize, hplaces]
  · rw [order, order, tracked_eq, tracked_eq, ← hsize]
    exact horder
  · rw [byPosition_eq_tracked, byPosition_eq_tracked, tracked_eq, tracked_eq, ← hsize]
    exact hresult

end

/-! ### Mapping the elements -/

theorem valueAt_map (f : Int32 → Int32) {buffer : Array Int32} {i : Nat} (h : i < buffer.size) :
    valueAt (buffer.map f) i = f (valueAt buffer i) := by
  simp [valueAt, h]

/-- Answers for values, and for what `f` makes of them, that have the same sign as long as the two
who answer remember what `R` says. -/
def Carries (f : Int32 → Int32) (answer : Int32 → Int32 → σ → Int32 × σ)
    (answer' : Int32 → Int32 → τ → Int32 × τ) (R : σ → τ → Prop) : Prop :=
  ∀ x y m m', R m m' →
    sign (answer x y m).1 = sign (answer' (f x) (f y) m').1 ∧
      R (answer x y m).2 (answer' (f x) (f y) m').2

theorem Carries.byValue_map {f : Int32 → Int32} {answer : Int32 → Int32 → σ → Int32 × σ}
    {answer' : Int32 → Int32 → τ → Int32 × τ} {R : σ → τ → Prop} (h : Carries f answer answer' R)
    (buffer : Array Int32) {m : σ} {m' : τ} (hR : R m m') :
    (byValue answer' (buffer.map f) m').1 = (byValue answer buffer m).1.map f ∧
      R (byValue answer buffer m).2 (byValue answer' (buffer.map f) m').2 := by
  have hstep : ∀ left right (b : Array Int32) m m', left < buffer.size → right < buffer.size →
      b.size = buffer.size → R m m' →
      ∃ a w a' w', ofValues (ε := Empty) answer left right b m = (.ok a, w) ∧
        Comparer.comap f (ofValues (ε := Empty) answer') left right b m' = (.ok a', w') ∧
        sign a = sign a' ∧ R w w' := by
    intro left right b m m' hl hr hn hR
    obtain ⟨hsign, hnext⟩ := h (valueAt b left) (valueAt b right) m m' hR
    refine ⟨_, _, _, _, rfl, rfl, ?_, ?_⟩
    · rw [valueAt_map f (hn ▸ hl), valueAt_map f (hn ▸ hr)]
      exact hsign
    · rw [valueAt_map f (hn ▸ hl), valueAt_map f (hn ▸ hr)]
      exact hnext
  obtain ⟨-, hbuffer, hmemory⟩ :=
    follow_simulates hstep (within_segment 0 buffer.size) rfl (m := m) (w := m') hR
  have hmapped := follow_comap (ofValues (ε := Empty) answer') f (segment 0 buffer.size) buffer m'
  simp only [byValue, byPosition, Array.size_map, hmapped]
  exact ⟨congrArg (·.map f) hbuffer, hmemory⟩

/-! ### The two runs -/

/-- The signs of the answers decide the sort. Two runs on buffers of one length that are answered
alike name the same positions in the same order and leave the elements in the same order. Answers
may be scaled as long as the signs of those given stay. A map of the values that carries the signs
over carries the sort over. -/
theorem signs_decide {ask : Comparer σ ε Int32} {ask' : Comparer τ ε' Int32}
    {buffer buffer' : Array Int32} (hsize : buffer.size = buffer'.size) (m : σ) (m' : τ) :
    (AnsweredAlike (calls ask buffer m) (calls ask' buffer' m') →
      (calls ask buffer m).map Inquiry.place = (calls ask' buffer' m').map Inquiry.place ∧
        (byPosition ask buffer m).result.toOption =
          (byPosition ask' buffer' m').result.toOption ∧
        order ask buffer m = order ask' buffer' m' ∧
        Arranges (order ask buffer m) buffer (byPosition ask buffer m).buffer ∧
        Arranges (order ask buffer m) buffer' (byPosition ask' buffer' m').buffer) ∧
    (∀ g : Int32 → Int32,
      (∀ q ∈ calls ask buffer m, ∀ a, q.outcome = .ok a → sign (g a) = sign a) →
        byPosition (ask.rescaled g) buffer m = byPosition ask buffer m ∧
          (calls (ask.rescaled g) buffer m).map Inquiry.place =
            (calls ask buffer m).map Inquiry.place) ∧
    ∀ (f : Int32 → Int32) (answer : Int32 → Int32 → σ → Int32 × σ)
      (answer' : Int32 → Int32 → τ → Int32 × τ) (R : σ → τ → Prop),
      Carries f answer answer' R → R m m' →
        (byValue answer' (buffer.map f) m').1 = (byValue answer buffer m).1.map f := by
  refine ⟨fun halike => ?_, fun g hg => ?_, fun f answer answer' R h hR => ?_⟩
  · obtain ⟨hplaces, horder, hresult⟩ := order_of_alike hsize halike
    have harranged : Arranges (order ask' buffer' m') buffer' _ := order_arranges
    rw [← horder] at harranged
    exact ⟨hplaces, hresult, horder, order_arranges, harranged⟩
  · obtain ⟨hwalk, hasked⟩ := follow_rescaled g (segment 0 buffer.size) buffer m hg
    refine ⟨hwalk, ?_⟩
    rw [calls, calls, hasked, List.map_map]
    rfl
  · exact (h.byValue_map buffer hR).1

/-- One run compares last digits; the answers of the other are written down beforehand and as large
as they can be. Sorting by last digits sorts the last digits. -/
theorem signs_decide_scripted :
    let key : Int32 → Int32 := (· % 10)
    let answer : Int32 → Int32 → Unit → Int32 × Unit := fun a b m => (ascending (key a) (key b), m)
    let ask : Comparer Unit Empty Int32 := ofValues answer
    let ask' : Comparer Nat Empty Int32 := fun _ _ _ k =>
      (.ok ([Int32.minValue, -3, Int32.maxValue].getD k 0), k + 1)
    let buffer : Array Int32 := #[12, 37, 25]
    let buffer' : Array Int32 := #[0, 0, 1]
    buffer.size = buffer'.size ∧ AnsweredAlike (calls ask buffer ()) (calls ask' buffer' 0) ∧
      order ask buffer () = #[0, 2, 1] ∧ (byPosition ask' buffer' 0).buffer = #[0, 1, 0] ∧
      byPosition (ask.rescaled (· * 7)) buffer () = byPosition ask buffer () ∧
      (byValue (fun a b k => (ascending a b, k)) (buffer.map key) 0).1 =
        (byValue answer buffer ()).1.map key := by
  intro key answer ask ask' buffer buffer'
  have hsize : buffer.size = buffer'.size := rfl
  have hcalls : calls ask buffer () = [⟨1, 0, #[37, 12, 25], .ok (-1)⟩,
      ⟨2, 0, #[37, 12, 25], .ok (-1)⟩, ⟨1, 0, #[12, 25, 37], .ok 1⟩] := by
    simp only [ask, answer, key, buffer]
    cbv
  have hcalls' : calls ask' buffer' 0 = [⟨1, 0, #[0, 0, 1], .ok Int32.minValue⟩,
      ⟨2, 0, #[0, 0, 1], .ok (-3)⟩, ⟨1, 0, #[0, 1, 0], .ok Int32.maxValue⟩] := by
    cbv
  have halike : AnsweredAlike (calls ask buffer ()) (calls ask' buffer' 0) := by
    rw [hcalls, hcalls']
    simp only [answeredAlike_cons]
    exact ⟨rfl, rfl, rfl, fun k q q' h => by cases h⟩
  have hscaled : ∀ q ∈ calls ask buffer (), ∀ a, q.outcome = .ok a → sign (a * 7) = sign a := by
    rw [hcalls]
    simp only [List.forall_mem_cons]
    refine ⟨?_, ?_, ?_, fun q hq => by cases hq⟩
    all_goals
      rintro _ ⟨⟩
      decide
  have hcarries : Carries key answer (fun a b (k : Nat) => (ascending a b, k)) fun _ _ => True :=
    fun _ _ _ _ _ => ⟨rfl, trivial⟩
  obtain ⟨hfirst, hsecond, hthird⟩ := @signs_decide _ _ _ _ ask ask' _ _ hsize () 0
  obtain ⟨-, -, -, -, harranged⟩ := hfirst halike
  have horder : order ask buffer () = #[0, 2, 1] := by
    simp only [ask, answer, key, buffer]
    cbv
  refine ⟨hsize, halike, horder, ?_, (hsecond _ hscaled).1, ?_⟩
  · rw [harranged.sorted, horder]
    cbv
  · exact hthird key answer _ _ hcarries trivial

end CallBridge.Sort
