import CallBridge.Proofs.Bridge.Requests
import CallBridge.Proofs.Json.Members
import CallBridge.Proofs.Sort.Shift
import CallBridge.Proofs.Sort.Tokens

/-!
# The raw-address entry point

A caller who has but an address and a signed count means a slice of a larger buffer. `sortSlice`
sorts a slice that stands anywhere in memory, for a caller who can be told of a failure.
`address_is_slice` says that the call at the address is this sort: with the slice in its place among
the other elements, the same registry, the same world and the same questions. It returns when the
sort of the slice succeeds; when it fails, one line is written and the process ends.
-/

namespace CallBridge

namespace Diagnostic

/-- A line that tells of a failure that ended the process. -/
def TellsOf (e : Bridge.Failure) (line : String) : Prop :=
  ∃ ms : Json.Members, line = (Json.object ms).compact ∧
    ms.find? "event" = some (.str "bridge_fatal") ∧ ms.find? "kind" = some (.str e.kind) ∧
    ms.find? "error" = some (.str e.message)

theorem tellsOf_render (milliseconds : Nat) (reaction : OnFatal) (e : Bridge.Failure) :
    TellsOf e
      (Notice.render milliseconds ⟨.fatal, "bridge_fatal", Bridge.fatalFields reaction e⟩) := by
  let ms : Json.Members := [("action", .str reaction.name), ("error", .str e.message),
    ("exit_code", .nat fatalStatus), ("kind", .str e.kind)] ++
      frame milliseconds "fatal" "bridge_fatal"
  have hdistinct : ms.Distinct := by
    simp [ms, frame, Json.Members.Distinct]
  refine ⟨ms.sort, rfl, ?_, ?_, ?_⟩ <;> rw [Json.Members.find?_sort hdistinct] <;> rfl

/-- A failure that ended the process is told of at every threshold. -/
theorem renderAll_push_fatal (milliseconds : Nat) (threshold : Level) (ns : Array Notice)
    (event : String) (fields : Json) :
    Notice.renderAll milliseconds threshold (ns.push ⟨.fatal, event, fields⟩).toList =
      Notice.renderAll milliseconds threshold ns.toList ++
        [Notice.render milliseconds ⟨.fatal, event, fields⟩] := by
  rw [Array.toList_push, Notice.renderAll, Notice.passing, List.filter_append, List.map_append]
  rfl

end Diagnostic

namespace Bridge
open Managed Diagnostic

variable {σ : Type}

/-! ### Slices -/

namespace Segment
variable (part : Segment) (data : Array Int32)

/-- The elements of a buffer before, in and behind a part. -/
def front : Array Int32 := data.extract 0 part.start

def slice : Array Int32 := data.extract part.start (part.start + part.length)

def back : Array Int32 := data.extract (part.start + part.length)

/-- Where the part stands in memory. -/
def address : UInt64 := (Token.ofPosition bufferBase part.start).address

variable {part data}

theorem append_slice : part.front data ++ part.slice data ++ part.back data = data := by
  simp [front, slice, back]

theorem size_front (h : part.start ≤ data.size) : (part.front data).size = part.start := by
  simpa [front] using h

theorem size_slice (h : part.length = 0 ∨ part.start + part.length ≤ data.size) :
    (part.slice data).size = part.length := by
  rw [slice, Array.size_extract]
  rcases h with h | h <;> omega

theorem slice_of_empty (h : part.length = 0) : part.slice data = #[] :=
  Array.eq_empty_of_size_eq_zero ((size_slice (.inl h)).trans h)

theorem append_of_empty (h : part.length = 0) :
    part.front data ++ #[] ++ part.back data = data := by
  have hslice : part.slice data = #[] := slice_of_empty h
  rw [← hslice, append_slice]

end Segment

theorem segmentAt_empty {address : Option Nat} {count : Int} (h : address = none ∨ count ≤ 0) :
    (segmentAt address count).length = 0 := by
  rcases h with rfl | h
  · rfl
  · cases address with
    | none => rfl
    | some offset => exact Int.toNat_of_nonpos h

/-! ### The end of a call -/

/-- A failed call writes one line, at every threshold, and the process ends. -/
structure Ended (reaction : OnFatal) (e : Failure) (w : World σ) (called : Sorted σ) : Prop where
  outcome : outcome reaction called.result = .ended reaction.ending
  world : called.memory = w.notify .fatal "bridge_fatal" (fatalFields reaction e)
  line : ∀ milliseconds threshold, ∃ line, TellsOf e line ∧
    Notice.renderAll milliseconds threshold called.memory.notices.toList =
      Notice.renderAll milliseconds threshold w.notices.toList ++ [line]

theorem outcome_eq_returned_iff {reaction : OnFatal} {result : Except Failure Unit} :
    outcome reaction result = .returned ↔ result = .ok () := by
  cases result <;> simp [outcome]

theorem reported_of_ok {reaction : OnFatal} {sorted : Sorted σ} (h : sorted.result = .ok ()) :
    reported reaction sorted = sorted := by
  rw [reported, h]

theorem ended_reported {reaction : OnFatal} {sorted : Sorted σ} {e : Failure}
    (h : sorted.result = .error e) : Ended reaction e sorted.memory (reported reaction sorted) := by
  have hreported : reported reaction sorted = { sorted with
      memory := sorted.memory.notify .fatal "bridge_fatal" (fatalFields reaction e) } := by
    rw [reported, h]
  rw [hreported]
  refine ⟨by rw [h]; rfl, rfl, fun milliseconds threshold => ?_⟩
  exact ⟨_, tellsOf_render milliseconds reaction e, renderAll_push_fatal ..⟩

/-! ### The sort of a slice -/

/-- The comparer that asks a binding on a thread about a buffer that starts at `base`. -/
def Binding.comparerAt (b : Binding σ) (thread : Thread) (base : UInt64) :
    Comparer (World σ) Failure Int32 :=
  fun left right buffer => b.invoke thread (Sort.named base left right buffer)

namespace Registry
variable (r : Registry σ) (thread : Thread) (c : Context) (s : Source) (w : World σ)

/-- Sort a slice that stands at `base`, for a caller who can be told of a failure. -/
def sortSlice (base : UInt64) (slice : Array Int32) : Sorted σ × Registry σ :=
  r.sortWith c s (fun b => Sort.byPosition (b.comparerAt thread base) slice) slice w

/-- The questions of a sort with the binding of a registry; none if it cannot be bound. -/
def asked (ask : Binding σ → Comparer (World σ) Failure Int32) (t : DecisionTree Unit)
    (buffer : Array Int32) : List (Inquiry Failure Int32) :=
  match r.bind c s w with
  | (.ok b, _, w) => t.inquiries (ask b) buffer w
  | (.error _, _, _) => []

theorem sort_whole (buffer : Array Int32) :
    r.sort thread c s (.whole buffer) buffer w = r.sortSlice thread c s w bufferBase buffer := rfl

/-- What a sort of no elements comes to: it only binds. -/
def justBound (buffer : Array Int32) : Sorted σ × Registry σ :=
  let (bound, r', w') := r.bind c s w
  (⟨bound.map fun _ => (), buffer, w'⟩, r')

theorem sortWith_empty (ask : Binding σ → Comparer (World σ) Failure Int32) (lo : Nat)
    (buffer : Array Int32) :
    r.sortWith c s (fun b => (Sort.segment lo 0).follow (ask b) buffer) buffer w =
      r.justBound c s w buffer := by
  rw [Sort.segment_of_le_one (Nat.zero_le 1)]
  unfold sortWith justBound
  rcases r.bind c s w with ⟨_ | b, r', w'⟩ <;> rfl

theorem asked_empty (ask : Binding σ → Comparer (World σ) Failure Int32) (lo : Nat)
    (buffer : Array Int32) : r.asked c s w ask (Sort.segment lo 0) buffer = [] := by
  rw [Sort.segment_of_le_one (Nat.zero_le 1)]
  unfold asked
  rcases r.bind c s w with ⟨_ | b, r', w'⟩ <;> rfl

theorem sortSlice_empty (base : UInt64) :
    r.sortSlice thread c s w base #[] = r.justBound c s w #[] :=
  r.sortWith_empty c s w (·.comparerAt thread base) 0 #[]

theorem sortSlice_of_empty {part : Segment} (h : part.length = 0) (data : Array Int32) :
    r.sortSlice thread c s w part.address (part.slice data) = r.justBound c s w #[] := by
  rw [Segment.slice_of_empty h]
  exact r.sortSlice_empty thread c s w part.address

theorem size_sortSlice (base : UInt64) (slice : Array Int32) :
    (r.sortSlice thread c s w base slice).1.buffer.size = slice.size := by
  unfold sortSlice sortWith
  rcases r.bind c s w with ⟨_ | b, r', w'⟩
  · rfl
  · exact Sort.byPosition_perm.size_eq

/-- The sort of a part of a buffer is the sort of the slice in this place. -/
structure SortsSlice (part : Segment) (data : Array Int32) : Prop where
  sorted :
    let alone := r.sortSlice thread c s w part.address (part.slice data)
    r.sort thread c s part data w =
      (⟨alone.1.result, part.front data ++ alone.1.buffer ++ part.back data, alone.1.memory⟩,
        alone.2)
  asked :
    r.asked c s w (·.comparer thread) (Sort.segment part.start part.length) data =
      (r.asked c s w (·.comparerAt thread part.address) (Sort.segment 0 (part.slice data).size)
        (part.slice data)).map (·.within (part.front data) (part.back data))

variable {part : Segment} {data : Array Int32}

theorem sortsSlice_of_empty (h : part.length = 0) : r.SortsSlice thread c s w part data := by
  -- The part may begin behind the end of the buffer, so nothing is said of where its front ends.
  refine ⟨?_, ?_⟩
  · have hsort : r.sort thread c s part data w = r.justBound c s w data := by
      rw [← r.sortWith_empty c s w (·.comparer thread) part.start data, ← h]
      rfl
    rw [hsort, r.sortSlice_of_empty thread c s w h]
    simp only [justBound, Segment.append_of_empty h]
  · rw [Segment.slice_of_empty h, h, asked_empty, Array.size_empty, asked_empty]
    rfl

theorem sortsSlice_of_le (h : part.start + part.length ≤ data.size) :
    r.SortsSlice thread c s w part data := by
  have hfront : (part.front data).size = part.start := Segment.size_front (by omega)
  have hslice : (part.slice data).size = part.length := Segment.size_slice (.inr h)
  have htree : Sort.segment part.start part.length =
      (Sort.segment 0 part.length).shift (part.front data).size := by
    rw [hfront]
    exact Sort.segment_add part.start 0 part.length
  have hanswer : ∀ (b : Binding σ) left right (buffer : Array Int32) (w : World σ),
      left < part.length → right < part.length → buffer.size = part.length →
      b.comparer thread ((part.front data).size + left) ((part.front data).size + right)
          (part.front data ++ buffer ++ part.back data) w =
        b.comparerAt thread part.address left right buffer w := by
    intro b left right buffer w hl hr hn
    have hnamed := Sort.named_append bufferBase (part.front data) buffer (part.back data)
      (hn ▸ hl) (hn ▸ hr)
    rw [hfront] at hnamed ⊢
    exact congrArg (fun q => b.invoke thread q w) hnamed
  -- Binding comes first and does not see the slice; from there on it is one walk, shifted.
  have hwalk := fun (b : Binding σ) (w : World σ) =>
    DecisionTree.follow_shift (hanswer b) (Sort.within_segment 0 part.length) hslice w
  rw [Segment.append_slice, ← htree] at hwalk
  refine ⟨?_, ?_⟩
  · simp only [sort, sortSlice, sortWith, Binding.sort, Sort.byPosition, hslice]
    rcases r.bind c s w with ⟨_ | b, r', w'⟩
    · simp only [Segment.append_slice]
    · simp only [(hwalk b w').1]
  · simp only [Registry.asked, hslice]
    rcases r.bind c s w with ⟨_ | b, r', w'⟩
    · rfl
    · exact (hwalk b w').2

/-! ### The call at an address -/

theorem sortsSlice_segmentAt {address : Option Nat} {count : Int}
    (inside : ∀ offset, address = some offset → 0 < count → offset + count ≤ data.size) :
    r.SortsSlice thread c s w (segmentAt address count) data := by
  cases address with
  | none => exact r.sortsSlice_of_empty thread c s w rfl
  | some offset =>
    have hcount := inside offset rfl
    rcases Int.lt_or_le 0 count with hpos | hneg
    · refine r.sortsSlice_of_le thread c s w ?_
      simp only [segmentAt]
      omega
    · exact r.sortsSlice_of_empty thread c s w (Int.toNat_of_nonpos hneg)

/-- What a call at an address does is told by the sort of the slice there alone. -/
theorem address_is_slice (reaction : OnFatal) {address : Option Nat} {count : Int}
    {data : Array Int32}
    (inside : ∀ offset, address = some offset → 0 < count → offset + count ≤ data.size) :
    let part := segmentAt address count
    let alone := r.sortSlice thread c s w part.address (part.slice data)
    let called := r.sortOrEnd reaction thread c s address count data w
    called.1.result = alone.1.result ∧
      called.1.buffer = part.front data ++ alone.1.buffer ++ part.back data ∧
      alone.1.buffer.size = (part.slice data).size ∧
      called.2 = alone.2 ∧
      r.asked c s w (·.comparer thread) (Sort.segment part.start part.length) data =
        (r.asked c s w (·.comparerAt thread part.address) (Sort.segment 0 (part.slice data).size)
          (part.slice data)).map (·.within (part.front data) (part.back data)) ∧
      (outcome reaction called.1.result = .returned ↔ alone.1.result = .ok ()) ∧
      (alone.1.result = .ok () → called.1.memory = alone.1.memory) ∧
      (∀ e, alone.1.result = .error e → Ended reaction e alone.1.memory called.1) ∧
      (address = none ∨ count ≤ 0 →
        alone = r.sort thread c s (.whole #[]) #[] w ∧ called.1.buffer = data ∧
          called.2 = (r.bind c s w).2.1) := by
  intro part alone called
  obtain ⟨hsorted, hasked⟩ := r.sortsSlice_segmentAt thread c s w inside
  let placed : Sorted σ :=
    ⟨alone.1.result, part.front data ++ alone.1.buffer ++ part.back data, alone.1.memory⟩
  have hcalled : called = (reported reaction placed, alone.2) := by
    simp only [called, sortOrEnd_eq, sortAt]
    rw [hsorted]
  have hresult : called.1.result = alone.1.result := by
    rw [hcalled, reported_result]
  have hbuffer : called.1.buffer = part.front data ++ alone.1.buffer ++ part.back data := by
    rw [hcalled, reported_buffer]
  have hregistry : called.2 = alone.2 := by rw [hcalled]
  refine ⟨hresult, hbuffer, r.size_sortSlice thread c s w _ _, hregistry, hasked, ?_, ?_, ?_, ?_⟩
  · rw [hresult, outcome_eq_returned_iff]
  · intro hok
    have hreported : reported reaction placed = placed := reported_of_ok hok
    rw [hcalled, hreported]
  · intro e herror
    have hended : Ended reaction e placed.memory (reported reaction placed) := ended_reported herror
    rw [hcalled]
    exact hended
  · intro hnone
    have hempty : part.length = 0 := segmentAt_empty hnone
    have halone : alone = r.justBound c s w #[] := r.sortSlice_of_empty thread c s w hempty data
    refine ⟨?_, ?_, ?_⟩
    · rw [halone, sort_whole, sortSlice_empty]
    · rw [hbuffer, halone]
      exact Segment.append_of_empty hempty
    · rw [hregistry, halone]
      rfl

/-- A comparator that throws, in the midst of a sort: the slice is changed and nothing else. -/
theorem address_is_slice_thrown :
    let r : Registry Unit := ⟨none⟩
    let w := ((Session.start ()).run [.create Class.benchmarks, .inject 0 .invoke]).world
    let data : Array Int32 := #[9, 2, 1, 7]
    let part := segmentAt (some 1) 2
    let alone := r.sortSlice .main ⟨0, 1⟩ .benchmark w part.address (part.slice data)
    let called := r.sortOrEnd .abort .main ⟨0, 1⟩ .benchmark (some 1) 2 data w
    (∀ offset : Nat, some 1 = some offset → 0 < (2 : Int) → offset + (2 : Int) ≤ data.size) ∧
      part.slice data = #[2, 1] ∧ alone.1.buffer = #[1, 2] ∧ called.1.buffer = #[9, 1, 2, 7] ∧
      called.2.isBound ∧ outcome .abort called.1.result = .ended .aborted ∧
      Ended .abort .thrown alone.1.memory called.1 := by
  intro r w data part alone called
  have inside : ∀ offset : Nat, some 1 = some offset → 0 < (2 : Int) →
      offset + (2 : Int) ≤ data.size := by
    intro offset hoffset _
    obtain rfl := Option.some.inj hoffset
    decide
  have hslice : part.slice data = #[2, 1] := rfl
  have halone : alone = r.sortSlice .main ⟨0, 1⟩ .benchmark w part.address #[2, 1] :=
    congrArg (r.sortSlice .main ⟨0, 1⟩ .benchmark w part.address) hslice
  have hresult : alone.1.result = .error .thrown := by
    rw [halone]
    cbv
  have hbuffer : alone.1.buffer = #[1, 2] := by
    rw [halone]
    cbv
  have hbound : alone.2.isBound = true := by
    rw [halone]
    cbv
  obtain ⟨-, hplaced, -, hregistry, -, -, -, hended, -⟩ :=
    address_is_slice r .main ⟨0, 1⟩ .benchmark w .abort inside
  have hthrown : Ended .abort .thrown alone.1.memory called.1 := hended _ hresult
  refine ⟨inside, hslice, hbuffer, ?_, ?_, hthrown.outcome, hthrown⟩
  · rw [hplaced]
    exact congrArg (fun slice => #[9] ++ slice ++ #[7]) hbuffer
  · rw [hregistry]
    exact hbound

end Registry
end Bridge
end CallBridge
