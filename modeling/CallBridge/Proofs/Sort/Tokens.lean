import CallBridge.Managed.Machine
import CallBridge.Proofs.Sort.Order

/-!
# Values and tokens

A comparer of values is shown two values. One that is handed tokens reads the elements they name,
and these change under the exchanges of the sort. Still it learns the same: a token is read when it
is handed over, and leads to the position it was made of (`read_ofPosition`).

`follow_simulates` compares two walks of one tree whose comparers do not fail and whose answers have
the same sign. It is used with the replies of a comparer of values on one side and, on the other,
the memory of anything that answers as it does (`Echoes`).
-/

namespace CallBridge

namespace DecisionTree
variable {σ τ ε ε' α ρ : Type} {ask : Comparer σ ε α} {ask' : Comparer τ ε' α}

/-- Walks of one tree inside the buffer go the same way while answers have the same sign. -/
theorem follow_simulates {n : Nat} {R : σ → τ → Prop}
    (h : ∀ left right buffer m w, left < n → right < n → buffer.size = n → R m w →
      ∃ a m' a' w', ask left right buffer m = (.ok a, m') ∧
        ask' left right buffer w = (.ok a', w') ∧ sign a = sign a' ∧ R m' w')
    {t : DecisionTree ρ} (ht : t.Within 0 n) {buffer : Array α} (hn : buffer.size = n) {m : σ}
    {w : τ} (hR : R m w) :
    let walk := t.follow ask buffer m
    let walk' := t.follow ask' buffer w
    (∃ r, walk.result = .ok r ∧ walk'.result = .ok r) ∧ walk'.buffer = walk.buffer ∧
      R walk.memory walk'.memory := by
  induction t generalizing buffer m w with
  | done r => exact ⟨⟨r, rfl, rfl⟩, rfl, hR⟩
  | exchange i j next ih =>
    exact ih ht.2.2 (by rw [Array.size_swapIfInBounds, hn]) hR
  | compare left right next ih =>
    obtain ⟨hl, hr, hnext⟩ := ht
    obtain ⟨a, m', a', w', ha, ha', hsign, hR'⟩ :=
      h left right buffer m w (by omega) (by omega) hn hR
    -- Only the sign of an answer chooses the branch.
    simp only [follow, ha, ha']
    rw [← hsign]
    exact ih _ (hnext _) hn hR'

end DecisionTree

theorem Comparer.noting_of_ok {σ ε α : Type} {ask : Comparer σ ε α} {left right : Nat}
    {buffer : Array α} {memory memory' : σ} {answer : Int32}
    (h : ask left right buffer memory = (.ok answer, memory')) (noted : List (Reply α)) :
    ask.noting left right buffer (memory, noted) =
      (.ok answer, memory', noted ++ [⟨left, right, buffer, answer⟩]) := by
  simp only [noting, h]

/-- The value of the element that a token names, in a buffer that starts at `base`. -/
def Token.read (base : UInt64) (buffer : Array Int32) (t : Token) : Int32 :=
  Sort.valueAt buffer ((t.address - base).toNat / stride)

theorem Token.read_ofPosition (base : UInt64) (buffer : Array Int32) {i : Nat}
    (h : stride * i < 2 ^ 64) : (ofPosition base i).read base buffer = Sort.valueAt buffer i := by
  have hoffset : (base + UInt64.ofNat (stride * i) - base).toNat = stride * i := by
    rw [UInt64.add_comm, UInt64.add_sub_cancel, UInt64.toNat_ofNat_of_lt' h]
  rw [read, ofPosition, hoffset, Nat.mul_div_cancel_left i (by decide)]

theorem Token.ofPosition_address (base : UInt64) (m i : Nat) :
    ofPosition (ofPosition base m).address i = ofPosition base (m + i) := by
  simp only [ofPosition, Nat.mul_add, UInt64.ofNat_add, UInt64.add_assoc]

end CallBridge

namespace CallBridge.Sort
open DecisionTree Managed

variable {σ τ κ ε : Type}

/-- A comparer that shows something of the buffer to one who answers. -/
def showing (see : Nat → Nat → Array Int32 → κ) (answer : κ → σ → Int32 × σ) :
    Comparer σ ε Int32 :=
  fun left right buffer memory =>
    let (a, memory) := answer (see left right buffer) memory
    (.ok a, memory)

/-- The values at two positions. -/
def values (left right : Nat) (buffer : Array Int32) : Int32 × Int32 :=
  (valueAt buffer left, valueAt buffer right)

/-- The tokens of two positions of a buffer that starts at `base`, and the values there. -/
def named (base : UInt64) (left right : Nat) (buffer : Array Int32) : Question :=
  ⟨.ofPosition base left, .ofPosition base right, valueAt buffer left, valueAt buffer right⟩

theorem valueAt_append (front buffer back : Array Int32) {i : Nat} (h : i < buffer.size) :
    valueAt (front ++ buffer ++ back) (front.size + i) = valueAt buffer i := by
  have hin : (front ++ buffer ++ back)[front.size + i]? = buffer[i]? := by
    rw [Array.append_assoc, Array.getElem?_append_right (Nat.le_add_right ..),
      Nat.add_sub_cancel_left, Array.getElem?_append_left h]
  simp only [valueAt, Array.getD_eq_getD_getElem?, hin]

/-- The elements of a part of a buffer bear the tokens they have in the buffer. -/
theorem named_append (base : UInt64) (front buffer back : Array Int32) {left right : Nat}
    (hl : left < buffer.size) (hr : right < buffer.size) :
    named base (front.size + left) (front.size + right) (front ++ buffer ++ back) =
      named (Token.ofPosition base front.size).address left right buffer := by
  simp only [named, Token.ofPosition_address, valueAt_append front buffer back hl,
    valueAt_append front buffer back hr]

/-- What one learns of two elements who is handed their tokens and reads through both. -/
def readThrough (base : UInt64) (left right : Nat) (buffer : Array Int32) : Question :=
  let s := Token.ofPosition base left
  let t := Token.ofPosition base right
  ⟨s, t, s.read base buffer, t.read base buffer⟩

theorem readThrough_eq_named {base : UInt64} {left right : Nat} (hl : Token.stride * left < 2 ^ 64)
    (hr : Token.stride * right < 2 ^ 64) (buffer : Array Int32) :
    readThrough base left right buffer = named base left right buffer := by
  rw [readThrough, Token.read_ofPosition base buffer hl, Token.read_ofPosition base buffer hr]
  rfl

/-- A comparer that is handed the tokens of two elements of a buffer that starts at `base`. -/
def ofTokens (base : UInt64) (answer : Question → σ → Int32 × σ) : Comparer σ ε Int32 :=
  showing (readThrough base) answer

/-- The answer for the values that were read through tokens. -/
def reading (answer : Int32 → Int32 → σ → Int32 × σ) (q : Question) : σ → Int32 × σ :=
  answer q.leftValue q.rightValue

/-- What one was shown and answered. -/
structure Asked (κ : Type) where
  shown : κ
  answer : Int32

/-- The answer of one who also keeps a record of all answers. -/
def recording (answer : κ → σ → Int32 × σ) (shown : κ) :
    σ × List (Asked κ) → Int32 × σ × List (Asked κ) :=
  fun (memory, record) =>
    let (a, memory) := answer shown memory
    (a, memory, record ++ [⟨shown, a⟩])

/-- The record of replies to one who was shown something of each. -/
def recordOf (see : Nat → Nat → Array Int32 → κ) (replies : List (Reply Int32)) : List (Asked κ) :=
  replies.map fun reply => ⟨see reply.left reply.right reply.buffer, reply.answer⟩

/-- The replies of a comparer in the sort of a buffer. -/
def sortReplies (ask : Comparer σ ε Int32) (buffer : Array Int32) (memory : σ) :
    List (Reply Int32) :=
  (segment 0 buffer.size).replies ask buffer memory

/-- One who is shown something of a buffer of `n` elements answers as a comparer of values does.
`view` is what he remembers when the comparer remembers so much and gave such replies. -/
def Echoes (answer : Int32 → Int32 → σ → Int32 × σ) (n : Nat)
    (see : Nat → Nat → Array Int32 → κ) (respond : κ → τ → Int32 × τ)
    (view : σ → List (Reply Int32) → τ) : Prop :=
  ∀ left right buffer m noted, left < n → right < n → buffer.size = n →
    respond (see left right buffer) (view m noted) =
      let (a, m) := answer (valueAt buffer left) (valueAt buffer right) m
      (a, view m (noted ++ [⟨left, right, buffer, a⟩]))

section
variable {answer : Int32 → Int32 → σ → Int32 × σ} {n : Nat} {see see' : Nat → Nat → Array Int32 → κ}
  {respond : κ → τ → Int32 × τ} {view : σ → List (Reply Int32) → τ}

theorem Echoes.of_see_eq (h : Echoes answer n see' respond view)
    (hsee : ∀ left right buffer, left < n → right < n →
      see left right buffer = see' left right buffer) :
    Echoes answer n see respond view := by
  intro left right buffer m noted hl hr hn
  rw [hsee left right buffer hl hr]
  exact h left right buffer m noted hl hr hn

theorem echoes_plain {answer' : κ → σ → Int32 × σ}
    (h : ∀ left right buffer, answer' (see left right buffer) =
      answer (valueAt buffer left) (valueAt buffer right)) :
    Echoes answer n see answer' fun m _ => m := by
  intro left right buffer m noted _ _ _
  rw [h]

theorem echoes_recording {answer' : κ → σ → Int32 × σ}
    (h : ∀ left right buffer, answer' (see left right buffer) =
      answer (valueAt buffer left) (valueAt buffer right)) :
    Echoes answer n see (recording answer') fun m noted => (m, recordOf see noted) := by
  intro left right buffer m noted _ _ _
  simp only [recording, h, recordOf, List.map_append, List.map_singleton]

/-- Whoever answers as a comparer of values does leads the sort the same way, behind whatever
comparer he is asked. `mind` is where he remembers, `Able` that the comparer gets his answer. -/
theorem Echoes.follow {ω ε' : Type} {buffer : Array Int32} {m : σ}
    (h : Echoes answer buffer.size see respond view) {ask : Comparer ω ε' Int32} {mind : ω → τ}
    {Able : ω → Prop}
    (hask : ∀ left right buffer w, Able w →
      ∃ w', ask left right buffer w = (.ok (respond (see left right buffer) (mind w)).1, w') ∧
        mind w' = (respond (see left right buffer) (mind w)).2 ∧ Able w')
    {w : ω} (able : Able w) (hw : mind w = view m []) :
    let walk : Walk σ Empty Int32 Unit := byPosition (ofValues answer) buffer m
    let replies := sortReplies (ε := Empty) (ofValues answer) buffer m
    let echo := byPosition ask buffer w
    echo.result = .ok () ∧ echo.buffer = walk.buffer ∧ mind echo.memory = view walk.memory replies ∧
      sortReplies ask buffer w = replies := by
  intro walk replies echo
  -- Notes are kept on both sides: those of the comparer of values tell what the other remembers.
  have hstep : ∀ left right (b : Array Int32) (noted : σ × List (Reply Int32)) (noted' : ω × _),
      left < buffer.size → right < buffer.size → b.size = buffer.size →
      (mind noted'.1 = view noted.1 noted.2 ∧ Able noted'.1 ∧ noted'.2 = noted.2) →
      ∃ a next a' next', Comparer.noting (ε := Empty) (ofValues answer) left right b noted =
          (.ok a, next) ∧ ask.noting left right b noted' = (.ok a', next') ∧ sign a = sign a' ∧
          (mind next'.1 = view next.1 next.2 ∧ Able next'.1 ∧ next'.2 = next.2) := by
    rintro left right b ⟨m, noted⟩ ⟨w, _⟩ hl hr hn ⟨hw, able, rfl⟩
    obtain ⟨w', ha, hw', able'⟩ := hask left right b w able
    rw [hw, h left right b m _ hl hr hn] at ha hw'
    exact ⟨_, _, _, _, rfl, Comparer.noting_of_ok ha _, rfl, hw', able', rfl⟩
  have hsim := follow_simulates hstep (within_segment 0 buffer.size) rfl (m := (m, []))
    (w := (w, [])) ⟨hw, able, rfl⟩
  rw [follow_noting, follow_noting] at hsim
  obtain ⟨⟨_, -, hresult⟩, hbuffer, hmind, -, hreplies⟩ := hsim
  exact ⟨hresult, hbuffer, hmind, hreplies⟩

theorem Echoes.follow_showing {buffer : Array Int32} {m : σ}
    (h : Echoes answer buffer.size see respond view) :
    let walk : Walk σ Empty Int32 Unit := byPosition (ofValues answer) buffer m
    let replies := sortReplies (ε := Empty) (ofValues answer) buffer m
    byPosition (ε := Empty) (showing see respond) buffer (view m []) =
        ⟨.ok (), walk.buffer, view walk.memory replies⟩ ∧
      sortReplies (ε := Empty) (showing see respond) buffer (view m []) = replies := by
  have hask : ∀ left right (b : Array Int32) (x : τ), True →
      ∃ x', showing (ε := Empty) see respond left right b x =
          (.ok (respond (see left right b) x).1, x') ∧
        x' = (respond (see left right b) x).2 ∧ True := fun _ _ _ _ _ =>
    ⟨_, rfl, rfl, trivial⟩
  obtain ⟨hresult, hbuffer, hmemory, hreplies⟩ := h.follow hask trivial rfl
  refine ⟨?_, hreplies⟩
  rcases hwalk : byPosition (ε := Empty) (showing see respond) buffer (view m []) with ⟨r, b, x⟩
  rw [hwalk] at hresult hbuffer hmemory
  obtain rfl : r = .ok () := hresult
  obtain rfl : b = _ := hbuffer
  obtain rfl : x = _ := hmemory
  rfl

/-- A comparer that is handed tokens echoes, if the buffer fits into memory. -/
theorem Echoes.follow_ofTokens {base : UInt64} {respond : Question → τ → Int32 × τ}
    {buffer : Array Int32} {m : σ} (h : Echoes answer buffer.size (named base) respond view)
    (hfits : Token.stride * buffer.size ≤ 2 ^ 64) :
    let walk : Walk σ Empty Int32 Unit := byPosition (ofValues answer) buffer m
    let replies := sortReplies (ε := Empty) (ofValues answer) buffer m
    byPosition (ε := Empty) (ofTokens base respond) buffer (view m []) =
        ⟨.ok (), walk.buffer, view walk.memory replies⟩ ∧
      sortReplies (ε := Empty) (ofTokens base respond) buffer (view m []) = replies := by
  have hlt : ∀ i < buffer.size, Token.stride * i < 2 ^ 64 := fun i hi =>
    (Nat.mul_lt_mul_of_pos_left hi (by decide)).trans_le hfits
  have hread : Echoes answer buffer.size (readThrough base) respond view :=
    h.of_see_eq fun left right b hl hr => readThrough_eq_named (hlt left hl) (hlt right hr) b
  exact hread.follow_showing

/-- Any answers of the ascending order take as many questions as the counting comparer counts. -/
theorem length_sortReplies_of_ascending
    (h : ∀ a b m, sign (answer a b m).1 = sign (ascending a b)) (buffer : Array Int32) (m : σ) :
    (sortReplies (ε := Empty) (ofValues answer) buffer m).length = ascendingCalls buffer := by
  have hstep : ∀ left right (b : Array Int32) (noted : σ × List (Reply Int32)) (asked : Nat),
      left < buffer.size → right < buffer.size → b.size = buffer.size →
      asked = noted.2.length →
      ∃ a next a' asked', Comparer.noting (ε := Empty) (ofValues answer) left right b noted =
          (.ok a, next) ∧ countingAscending (ε := Empty) left right b asked = (.ok a', asked') ∧
          sign a = sign a' ∧ asked' = next.2.length := by
    rintro left right b ⟨m, noted⟩ _ - - - rfl
    exact ⟨_, _, _, _, rfl, rfl, h .., by simp⟩
  obtain ⟨-, -, hlength⟩ :=
    follow_simulates hstep (within_segment 0 buffer.size) rfl (m := (m, [])) (w := 0) rfl
  exact hlength.symm

end

end CallBridge.Sort
