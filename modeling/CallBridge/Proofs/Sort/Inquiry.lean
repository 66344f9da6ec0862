import CallBridge.Proofs.Sort.Order

/-!
# A question that fails

`inquiries` are the questions of a walk with what came of them, one that failed included. A
comparer of which one question is made to fail (`failingAt`) is asked the same questions up to this
one and none behind it, and the walk leaves the buffer as this question found it
(`failure_cuts_short`). This holds of every decision tree, by induction on the tree: what was asked
before the failure is what the tree branches on.
-/

namespace CallBridge

/-- A question to a comparer: the two positions, the buffer as it stood, and what came of it. -/
structure Inquiry (ε α : Type) where
  left : Nat
  right : Nat
  buffer : Array α
  outcome : Except ε Int32

/-- A reply as a question with its answer. -/
def Reply.inquiry {ε α : Type} (reply : Reply α) : Inquiry ε α :=
  ⟨reply.left, reply.right, reply.buffer, .ok reply.answer⟩

namespace Comparer
variable {σ ε α : Type}

/-- The comparer that also keeps a log of all its questions. -/
def logging (ask : Comparer σ ε α) : Comparer (σ × List (Inquiry ε α)) ε α :=
  fun left right buffer (memory, log) =>
    let (outcome, memory) := ask left right buffer memory
    (outcome, memory, log ++ [⟨left, right, buffer, outcome⟩])

/-- The comparer whose question number `k`, counted from one, fails with `e`; it counts them. -/
def failingAt (k : Nat) (e : ε) (ask : Comparer σ ε α) : Comparer (σ × Nat) ε α :=
  fun left right buffer (memory, asked) =>
    if asked + 1 = k then (.error e, memory, asked + 1)
    else
      let (outcome, memory) := ask left right buffer memory
      (outcome, memory, asked + 1)

end Comparer

namespace DecisionTree
variable {σ ε α ρ τ : Type} {ask : Comparer σ ε α}

/-- The questions of a walk. -/
def inquiries (ask : Comparer σ ε α) (t : DecisionTree ρ) (buffer : Array α) (memory : σ) :
    List (Inquiry ε α) :=
  (t.follow ask.logging buffer (memory, [])).memory.2

/-- Keeping a log changes nothing about a walk. -/
theorem follow_logging (t : DecisionTree ρ) (buffer : Array α) (memory : σ)
    (log : List (Inquiry ε α)) :
    t.follow ask.logging buffer (memory, log) =
      let walk := t.follow ask buffer memory
      ⟨walk.result, walk.buffer, walk.memory, log ++ t.inquiries ask buffer memory⟩ :=
  follow_of_writes (fun left right buffer outcome => [⟨left, right, buffer, outcome⟩])
    (fun _ _ _ _ _ => rfl) t buffer memory log

@[simp] theorem inquiries_done (r : ρ) (buffer : Array α) (memory : σ) :
    (done r).inquiries ask buffer memory = [] := rfl

@[simp] theorem inquiries_exchange (i j : Nat) (next : DecisionTree ρ) (buffer : Array α)
    (memory : σ) :
    (exchange i j next).inquiries ask buffer memory =
      next.inquiries ask (buffer.swapIfInBounds i j) memory := rfl

theorem inquiries_compare (left right : Nat) (next : Ordering → DecisionTree ρ) (buffer : Array α)
    (memory : σ) :
    (compare left right next).inquiries ask buffer memory =
      ⟨left, right, buffer, (ask left right buffer memory).1⟩ ::
        match ask left right buffer memory with
        | (.ok answer, memory) => (next (sign answer)).inquiries ask buffer memory
        | (.error _, _) => [] := by
  simp only [inquiries, follow, Comparer.logging]
  rcases ask left right buffer memory with ⟨e | answer, memory⟩
  · rfl
  · simp only [List.nil_append]
    rw [follow_logging]
    rfl

/-- The questions of a walk that comes to its end are the replies. -/
theorem inquiries_of_ok {t : DecisionTree ρ} {buffer : Array α} {memory : σ} {r : ρ}
    (h : (t.follow ask buffer memory).result = .ok r) :
    t.inquiries ask buffer memory = (t.replies ask buffer memory).map Reply.inquiry := by
  induction t generalizing buffer memory with
  | done s => rfl
  | exchange i j next ih => exact ih h
  | compare left right next ih =>
    rw [inquiries_compare, replies_compare]
    simp only [follow] at h
    rcases hask : ask left right buffer memory with ⟨e | answer, memory'⟩
    · simp [hask] at h
    · simp only [hask] at h
      simp only [List.map_cons, ih _ h]
      rfl

/-- A walk whose questions are all answered comes to its end. -/
theorem exists_result_of_answered {t : DecisionTree ρ} {buffer : Array α} {memory : σ}
    (h : ∀ q ∈ t.inquiries ask buffer memory, ∃ answer, q.outcome = .ok answer) :
    ∃ r, (t.follow ask buffer memory).result = .ok r := by
  induction t generalizing buffer memory with
  | done r => exact ⟨r, rfl⟩
  | exchange i j next ih => exact ih h
  | compare left right next ih =>
    rw [inquiries_compare, List.forall_mem_cons] at h
    obtain ⟨⟨answer, hfirst⟩, hrest⟩ := h
    simp only [follow]
    rcases hask : ask left right buffer memory with ⟨e | answer', memory'⟩
    · simp [hask] at hfirst
    · simp only [hask] at hrest
      exact ih _ hrest

/-- The questions of two trees, one after the other. -/
theorem inquiries_bind {t : DecisionTree ρ} (f : ρ → DecisionTree τ) {buffer buffer' : Array α}
    {memory memory' : σ} {r : ρ} (h : t.follow ask buffer memory = ⟨.ok r, buffer', memory'⟩) :
    (t.bind f).inquiries ask buffer memory =
      t.inquiries ask buffer memory ++ (f r).inquiries ask buffer' memory' := by
  induction t generalizing buffer memory with
  | done s =>
    obtain ⟨⟩ := h
    rfl
  | exchange i j next ih => exact ih h
  | compare left right next ih =>
    simp only [follow] at h
    simp only [bind]
    rw [inquiries_compare, inquiries_compare]
    rcases hask : ask left right buffer memory with ⟨e | answer, memory''⟩
    · simp [hask] at h
    · simp only [hask] at h
      simp only [ih _ h, List.cons_append]

/-! ### One question made to fail -/

section
variable {k : Nat} {e : ε} {asked : Nat} {buffer : Array α} {memory : σ}

theorem failingAt_of_ne (h : asked + 1 ≠ k) (left right : Nat) (buffer : Array α) (memory : σ) :
    ask.failingAt k e left right buffer (memory, asked) =
      ((ask left right buffer memory).1, (ask left right buffer memory).2, asked + 1) := by
  simp only [Comparer.failingAt, if_neg h]

theorem failingAt_self (h : asked + 1 = k) (left right : Nat) (buffer : Array α) (memory : σ) :
    ask.failingAt k e left right buffer (memory, asked) = (.error e, memory, asked + 1) := by
  simp only [Comparer.failingAt, if_pos h]

/-- A walk that ends before the question that is made to fail. -/
theorem follow_failingAt_of_lt (t : DecisionTree ρ)
    (h : asked + (t.inquiries ask buffer memory).length < k) :
    t.inquiries (ask.failingAt k e) buffer (memory, asked) = t.inquiries ask buffer memory ∧
      t.follow (ask.failingAt k e) buffer (memory, asked) =
        let walk := t.follow ask buffer memory
        ⟨walk.result, walk.buffer, walk.memory,
          asked + (t.inquiries ask buffer memory).length⟩ := by
  induction t generalizing buffer memory asked with
  | done r => exact ⟨rfl, rfl⟩
  | exchange i j next ih => exact ih h
  | compare left right next ih =>
    rw [inquiries_compare, List.length_cons] at h
    have hne : asked + 1 ≠ k := by omega
    rw [inquiries_compare, inquiries_compare]
    simp only [follow]
    rw [failingAt_of_ne hne]
    rcases hask : ask left right buffer memory with ⟨e' | answer, memory'⟩
    · exact ⟨rfl, rfl⟩
    · simp only [hask] at h
      obtain ⟨hcalls, hwalk⟩ := @ih (sign answer) (asked + 1) buffer memory' (by omega)
      refine ⟨by simp only [hcalls], ?_⟩
      simp only [hwalk, List.length_cons]
      congr 2
      omega

/-- A walk that comes to the question that is made to fail ends there. -/
theorem follow_failingAt_of_getElem? (t : DecisionTree ρ) {n : Nat} {q : Inquiry ε α}
    (h : (t.inquiries ask buffer memory)[n]? = some q) (hk : asked + n + 1 = k) :
    t.inquiries (ask.failingAt k e) buffer (memory, asked) =
        (t.inquiries ask buffer memory).take n ++ [{ q with outcome := .error e }] ∧
      (t.follow (ask.failingAt k e) buffer (memory, asked)).result = .error e ∧
      (t.follow (ask.failingAt k e) buffer (memory, asked)).buffer = q.buffer := by
  induction t generalizing buffer memory asked n with
  | done r => simp at h
  | exchange i j next ih => exact ih h hk
  | compare left right next ih =>
    rw [inquiries_compare] at h
    rw [inquiries_compare, inquiries_compare]
    simp only [follow]
    -- The first question is the one made to fail, or it is answered as in the full walk.
    cases n with
    | zero =>
      obtain rfl := Option.some.inj h
      rw [failingAt_self hk]
      exact ⟨rfl, rfl, rfl⟩
    | succ n =>
      have hne : asked + 1 ≠ k := by omega
      rw [List.getElem?_cons_succ] at h
      rw [failingAt_of_ne hne]
      rcases hask : ask left right buffer memory with ⟨e' | answer, memory'⟩
      · simp [hask] at h
      · simp only [hask] at h
        obtain ⟨hcalls, hresult, hbuffer⟩ :=
          @ih (sign answer) (asked + 1) buffer memory' n h (by omega)
        refine ⟨?_, hresult, hbuffer⟩
        simp only [hcalls, List.take_succ_cons, List.cons_append]

end

end DecisionTree
end CallBridge

namespace CallBridge.Sort
open DecisionTree

variable {σ ε : Type}

/-- The questions of the sort of a buffer. -/
def calls (ask : Comparer σ ε Int32) (buffer : Array Int32) (memory : σ) :
    List (Inquiry ε Int32) :=
  (segment 0 buffer.size).inquiries ask buffer memory

/-- The sort of a segment of two or more begins with an exchange and a question. -/
theorem segment_of_two_le {lo len : Nat} (h : 2 ≤ len) :
    ∃ next, segment lo len = .exchange lo (lo + len / 2) (.compare (lo + 1) lo next) := by
  obtain ⟨r, rfl⟩ : ∃ r, len = r + 2 := ⟨len - 2, by omega⟩
  have hlen : 1 < r + 2 := h
  rw [segment, dif_pos hlen, split]
  simp only [show r + 2 - 1 = r + 1 from rfl]
  rw [fromFront]
  exact ⟨_, rfl⟩

theorem length_inquiries_eq_zero_iff (ask : Comparer σ ε Int32) (lo len : Nat)
    (buffer : Array Int32) (memory : σ) :
    ((segment lo len).inquiries ask buffer memory).length = 0 ↔ len < 2 := by
  constructor
  · intro h
    by_contra hlen
    obtain ⟨next, hnext⟩ := @segment_of_two_le lo len (Nat.le_of_not_lt hlen)
    rw [hnext, inquiries_exchange, inquiries_compare] at h
    cases h
  · intro h
    rw [segment_of_le_one (by omega)]
    rfl

/-- A comparer of which one call is made to fail. If the sort makes fewer calls, nothing changes.
Otherwise the failure ends it: the calls are those of the full run up to this one, and the buffer is
left as this call found it. -/
theorem failure_cuts_short (ask : Comparer σ ε Int32) (buffer : Array Int32) (memory : σ) {k : Nat}
    (hk : 1 ≤ k) (e : ε) :
    let full := byPosition ask buffer memory
    let cut := byPosition (ask.failingAt k e) buffer (memory, 0)
    let made := calls ask buffer memory
    let cutMade := calls (ask.failingAt k e) buffer (memory, 0)
    (made.length < k →
      cut.result = full.result ∧ cut.buffer = full.buffer ∧ cut.memory.1 = full.memory ∧
        cutMade = made ∧ (ask.Sure → cut.result = .ok ())) ∧
    ∀ h : k ≤ made.length,
      cut.result = .error e ∧ cutMade.length = k ∧
        cutMade = made.take (k - 1) ++ [{ made[k - 1] with outcome := .error e }] ∧
        cut.buffer = made[k - 1].buffer ∧ cut.buffer.Perm buffer := by
  intro full cut made cutMade
  constructor
  · intro h
    have hlt : 0 + made.length < k := by omega
    obtain ⟨hcalls, hcut⟩ := follow_failingAt_of_lt (e := e) (segment 0 buffer.size) hlt
    have hresult : cut.result = full.result := congrArg Walk.result hcut
    refine ⟨hresult, congrArg Walk.buffer hcut, ?_, hcalls, fun sure => ?_⟩
    · exact congrArg (fun walk => walk.memory.1) hcut
    · exact hresult.trans (byPosition_result sure)
  · intro h
    have hlast : made[k - 1]? = some made[k - 1] := List.getElem?_eq_getElem (by omega)
    have hnumber : 0 + (k - 1) + 1 = k := by omega
    obtain ⟨hcalls, hresult, hbuffer⟩ :=
      follow_failingAt_of_getElem? (e := e) (segment 0 buffer.size) hlast hnumber
    have hlength : cutMade.length = min (k - 1) made.length + 1 := by
      have := congrArg List.length hcalls
      rwa [List.length_append, List.length_take, List.length_singleton] at this
    exact ⟨hresult, by omega, hcalls, hbuffer, byPosition_perm⟩

theorem failure_cuts_short_fifth :
    let ask : Comparer Nat String Int32 := fun _ _ _ asked =>
      (.ok (if asked % 2 = 0 then -1 else 1), asked + 1)
    let buffer : Array Int32 := #[3, 1, 2, 1, 2, 3]
    let cut := byPosition (ask.failingAt 5 "lost") buffer (0, 0)
    1 ≤ 5 ∧ 5 ≤ (calls ask buffer 0).length ∧ cut.result = .error "lost" ∧
      (calls (ask.failingAt 5 "lost") buffer (0, 0)).length = 5 ∧
      cut.buffer = #[1, 1, 3, 3, 2, 2] ∧ cut.buffer.Perm buffer := by
  intro ask buffer cut
  have hlength : (calls ask buffer 0).length = 8 := by cbv
  have hfifth : (calls ask buffer 0)[4]?.map (·.buffer) = some #[1, 1, 3, 3, 2, 2] := by cbv
  obtain ⟨-, h⟩ := failure_cuts_short ask buffer 0 (k := 5) (by decide) "lost"
  obtain ⟨hresult, hmade, -, hbuffer, hperm⟩ := h (by omega)
  refine ⟨by decide, by omega, hresult, hmade, hbuffer.trans ?_, hperm⟩
  rw [List.getElem?_eq_getElem (by omega)] at hfifth
  exact Option.some.inj hfifth

end CallBridge.Sort
