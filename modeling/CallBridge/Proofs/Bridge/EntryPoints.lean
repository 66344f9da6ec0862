import CallBridge.Bridge.Undisturbed
import CallBridge.Proofs.Bridge.Fabric
import CallBridge.Proofs.Sort.Tokens

/-!
# One sort behind all entry points

A buffer is sorted with a comparer of values, with one that is handed tokens, through a comparison
function of a C caller, and through a binding to a managed method: one that is bound already, that a
registry binds first, or that is made for this one sort. `entry_points_agree` says that all these
are the same sort, for all answers.

A binding that nothing keeps from answering (`Binding.Faultless`) hands its method's answer on, so a
method that reads both tokens echoes a comparer of values. Resolving and binding beforehand change
neither the fabric of the world nor what managed code remembers.
-/

namespace CallBridge.Bridge
open Managed DecisionTree CallBridge.Sort

variable {σ τ : Type}

/-! ### Faultless bindings -/

structure Binding.Faultless (b : Binding σ) (w : World σ) : Prop where
  attach : w.faulty b.machine .attach = false
  invoke : w.faulty b.machine .invoke = false

section
variable {b : Binding σ} {w w' : World σ}

theorem Binding.Faultless.of_fabric (h : b.Faultless w) (hw : w'.fabric = w.fabric) :
    b.Faultless w' := by
  refine ⟨?_, ?_⟩
  · rw [World.faulty_of_fabric hw, h.attach]
  · rw [World.faulty_of_fabric hw, h.invoke]

theorem ensureAttached_of_not_faulty (thread : Thread) {id : Nat}
    (h : w.faulty id .attach = false) :
    ∃ w', ensureAttached thread id w = (.ok (), w') ∧ w'.memory = w.memory := by
  rw [ensureAttached, Act.bind_eq]
  simp only [Act.change, attach, World.faulty_count, h]
  split
  · contradiction
  · split
    · exact ⟨_, rfl, rfl⟩
    · exact ⟨_, rfl, rfl⟩

theorem call_of_not_faulty (body : Body σ) (q : Question) {id : Nat}
    (h : w.faulty id .invoke = false) :
    ∃ w', call id body q w = (.ok (body.answer q w.memory).1, w') ∧
      w'.memory = (body.answer q w.memory).2 := by
  rw [call, Act.bind_eq]
  simp only [Act.change, Act.look, Act.bind_eq, World.faulty_count, h]
  exact ⟨_, rfl, rfl⟩

theorem Binding.Faultless.invoke_eq (h : b.Faultless w) (thread : Thread) (q : Question) :
    ∃ w', b.invoke thread q w = (.ok (b.body.answer q w.memory).1, w') ∧
      w'.memory = (b.body.answer q w.memory).2 ∧ b.Faultless w' := by
  have hkeeps := b.invoke_keeps ignoresAsking_fabric thread q w
  obtain ⟨w₁, h₁, hm₁⟩ := ensureAttached_of_not_faulty thread h.attach
  have hattached : (ensureAttached thread b.machine w).2.fabric = w.fabric :=
    ensureAttached_keeps ignoresAsking_fabric thread w
  rw [h₁] at hattached
  obtain ⟨w₂, h₂, hm₂⟩ := call_of_not_faulty b.body q (h.of_fabric hattached).invoke
  have hinvoke : b.invoke thread q w = (.ok (b.body.answer q w.memory).1, w₂) := by
    rw [Binding.invoke, Act.bind_eq, h₁, ← hm₁]
    exact h₂
  rw [hinvoke] at hkeeps
  exact ⟨w₂, hinvoke, by rw [hm₂, hm₁], h.of_fabric hkeeps⟩

/-- What a method body of a runtime replies on a thread, and what managed code remembers then. -/
def reply (id : Nat) (thread : Thread) (body : Body σ) (x : Question) (w : World σ) :
    Except Failure Int32 × σ :=
  if w.faulty id .attach then
    (.error (.attachRefused (World.runtimeNumber id) thread.name), w.memory)
  else if w.faulty id .invoke then (.error .thrown, w.memory)
  else
    let (answer, memory) := body.answer x w.memory
    (.ok answer, memory)

theorem Binding.invoke_reply (b : Binding σ) (thread : Thread) (x : Question) (w : World σ) :
    ((b.invoke thread x w).1, (b.invoke thread x w).2.memory) =
      reply b.machine thread b.body x w := by
  rw [reply]
  cases hattach : w.faulty b.machine .attach with
  | true =>
    rw [invoke, ensureAttached, Act.bind_eq, Act.bind_eq]
    simp only [Act.change, attach, World.faulty_count, hattach, if_true]
    rfl
  | false =>
    cases hinvoke : w.faulty b.machine .invoke with
    | true =>
      obtain ⟨w₁, h₁, hm₁⟩ := ensureAttached_of_not_faulty thread hattach
      have hattached : (ensureAttached thread b.machine w).2.fabric = w.fabric :=
        ensureAttached_keeps ignoresAsking_fabric thread w
      rw [h₁] at hattached
      have hfault := (World.faulty_of_fabric hattached b.machine .invoke).trans hinvoke
      rw [invoke, Act.bind_eq, h₁, ← hm₁]
      simp only [call, Act.bind_eq, Act.change, Act.look, World.faulty_count, hfault, if_true]
      rfl
    | false =>
      have hfaultless : b.Faultless w := ⟨hattach, hinvoke⟩
      obtain ⟨w', h, hmemory, -⟩ := hfaultless.invoke_eq thread x
      rw [h, hmemory]
      rfl

end

/-! ### Sorting with an echo -/

/-- The sort came to its end and left this buffer, and managed code remembers this much. -/
structure EndsWith (sorted : Sorted τ) (buffer : Array Int32) (memory : τ) : Prop where
  result : sorted.result = .ok ()
  buffer : sorted.buffer = buffer
  memory : sorted.memory.memory = memory

theorem ignoresResolving_memory {id : Nat} : IgnoresResolving (World.memory (σ := σ)) id where
  handle _ := rfl
  lookup _ := rfl
  promotion _ := rfl

/-- Whoever responds so, all sorts that hand tokens to him leave the same buffer and take him from
one memory to the other, which may depend on where the buffer starts. -/
structure EntryPoints (respond : Question → τ → Int32 × τ) (buffer : Array Int32) (before : τ)
    (sorted : Array Int32) (after : UInt64 → τ) (replies : List (Reply Int32)) : Prop where
  token : ∀ base, Token.stride * buffer.size ≤ 2 ^ 64 →
    byPosition (ε := Empty) (ofTokens base respond) buffer before =
        ⟨.ok (), sorted, after base⟩ ∧
      sortReplies (ε := Empty) (ofTokens base respond) buffer before = replies
  function : ∀ base, Token.stride * buffer.size ≤ 2 ^ 64 →
    bounded (some (ofTokens base respond)) buffer.size (some buffer) before =
      (some sorted, after base)
  bound : ∀ (b : Binding τ) (thread : Thread) (w : World τ), b.body.answer = respond →
    b.Faultless w → w.memory = before →
      EndsWith (b.sort thread (.whole buffer) buffer w) sorted (after bufferBase) ∧
        sortReplies (b.comparer thread) buffer w = replies
  registry : ∀ (r : Registry τ) (c : Context) (s : Source) (b : Binding τ) (thread : Thread)
    (w : World τ), (r.bind c s w).1 = .ok b → b.body.answer = respond → b.Faultless w →
      w.memory = before →
      EndsWith (r.sort thread c s (.whole buffer) buffer w).1 sorted (after bufferBase)
  fresh : ∀ (c : Context) (s : Source) (b : Binding τ) (thread : Thread) (w : World τ),
    (resolve c s w).1 = .ok b → b.body.answer = respond → b.Faultless w → w.memory = before →
      EndsWith (sortFresh thread c s (.whole buffer) buffer w) sorted (after bufferBase)

section
variable {answer : Int32 → Int32 → σ → Int32 × σ} {buffer : Array Int32} {m : σ}
  {respond : Question → τ → Int32 × τ} {view : UInt64 → σ → List (Reply Int32) → τ}

theorem sort_of_echoes
    (h : Echoes answer buffer.size (named bufferBase) respond (view bufferBase)) {b : Binding τ}
    (thread : Thread) {w : World τ} (hb : b.body.answer = respond) (hf : b.Faultless w)
    (hw : w.memory = view bufferBase m []) :
    let walk : Walk σ Empty Int32 Unit := byPosition (ofValues answer) buffer m
    let replies := sortReplies (ε := Empty) (ofValues answer) buffer m
    EndsWith (b.sort thread (.whole buffer) buffer w) walk.buffer
        (view bufferBase walk.memory replies) ∧
      sortReplies (b.comparer thread) buffer w = replies := by
  have hask : ∀ left right (buffer : Array Int32) w, b.Faultless w →
      ∃ w', b.comparer thread left right buffer w =
          (.ok (respond (named bufferBase left right buffer) w.memory).1, w') ∧
        w'.memory = (respond (named bufferBase left right buffer) w.memory).2 ∧ b.Faultless w' := by
    intro left right buffer w hf
    rw [← hb]
    exact hf.invoke_eq thread (question left right buffer)
  obtain ⟨hresult, hbuffer, hmemory, hreplies⟩ := h.follow hask hf hw
  exact ⟨⟨hresult, hbuffer, hmemory⟩, hreplies⟩

theorem entryPoints_of_echoes
    (h : ∀ base, Echoes answer buffer.size (named base) respond (view base))
    (hview : ∀ base, view base m [] = view bufferBase m []) :
    let walk : Walk σ Empty Int32 Unit := byPosition (ofValues answer) buffer m
    let replies := sortReplies (ε := Empty) (ofValues answer) buffer m
    EntryPoints respond buffer (view bufferBase m []) walk.buffer
      (fun base => view base walk.memory replies) replies := by
  intro walk replies
  have htoken : ∀ base, Token.stride * buffer.size ≤ 2 ^ 64 →
      byPosition (ε := Empty) (ofTokens base respond) buffer (view bufferBase m []) =
          ⟨.ok (), walk.buffer, view base walk.memory replies⟩ ∧
        sortReplies (ε := Empty) (ofTokens base respond) buffer (view bufferBase m []) =
          replies := by
    intro base hfits
    rw [← hview base]
    exact (h base).follow_ofTokens hfits
  refine ⟨htoken, fun base hfits => ?_, fun b thread w hb hf hw => ?_, ?_, ?_⟩
  · have hwalk := (htoken base hfits).1
    rw [byPosition] at hwalk
    simp only [bounded, Int.toNat_natCast, hwalk]
  · exact sort_of_echoes (h bufferBase) thread hb hf hw
  · -- Binding beforehand leaves no trace in the faults or in what managed code remembers.
    intro r c s b thread w hbind hb hf hw
    have hfabric := r.fabric_bind c s w
    have hmemory := r.bind_keeps (c := c) ignoresResolving_memory (fun _ _ _ _ => rfl) s w
    unfold Registry.sort Registry.sortWith
    rcases hbound : r.bind c s w with ⟨e | b', r', w'⟩ <;> rw [hbound] at hbind hfabric hmemory
    · cases hbind
    · obtain rfl := Except.ok.inj hbind
      exact (sort_of_echoes (h bufferBase) thread hb (hf.of_fabric hfabric)
        (hmemory.trans hw)).1
  · intro c s b thread w hresolve hb hf hw
    have hfabric := resolve_keeps (c := c) ignoresResolving_fabric s w
    have hmemory := resolve_keeps (c := c) ignoresResolving_memory s w
    unfold sortFresh sortFreshWith
    rcases hres : resolve c s w with ⟨e | b', w'⟩ <;> rw [hres] at hresolve hfabric hmemory
    · cases hresolve
    · obtain rfl := Except.ok.inj hresolve
      obtain ⟨⟨hresult, hbuffer, hend⟩, -⟩ := sort_of_echoes (h bufferBase) thread hb
        (hf.of_fabric hfabric) (hmemory.trans hw)
      exact ⟨hresult, hbuffer, hend⟩

/-- All entry points are one sort: whoever answers for values leads it to the same buffer, and from
the same replies to the same memory, whether he is shown values or handed tokens. Who keeps a record
of what he is shown has the same calls in it: the values, and the tokens of the positions where they
stood. For answers of the ascending order these are as many as `ascendingCalls` says. -/
theorem entry_points_agree (answer : Int32 → Int32 → σ → Int32 × σ) (buffer : Array Int32)
    (m : σ) :
    let walk : Walk σ Empty Int32 Unit := byPosition (ofValues answer) buffer m
    let replies := sortReplies (ε := Empty) (ofValues answer) buffer m
    byValue answer buffer m = (walk.buffer, walk.memory) ∧
      byValue (fun a b => recording (fun shown => answer shown.1 shown.2) (a, b)) buffer (m, []) =
        (walk.buffer, walk.memory, recordOf values replies) ∧
      EntryPoints (reading answer) buffer m walk.buffer (fun _ => walk.memory) replies ∧
      EntryPoints (recording (reading answer)) buffer (m, []) walk.buffer
        (fun base => (walk.memory, recordOf (named base) replies)) replies ∧
      ((∀ a b m, sign (answer a b m).1 = sign (ascending a b)) →
        replies.length = ascendingCalls buffer) := by
  intro walk replies
  refine ⟨rfl, ?_, ?_, ?_, fun h => length_sortReplies_of_ascending h buffer m⟩
  · have hrecord : Echoes answer buffer.size values
        (recording fun shown : Int32 × Int32 => answer shown.1 shown.2)
        fun m noted => (m, recordOf values noted) := echoes_recording fun _ _ _ => rfl
    exact congrArg (fun walk => (walk.buffer, walk.memory)) hrecord.follow_showing.1
  · exact @entryPoints_of_echoes σ σ answer buffer m (reading answer) (fun _ m _ => m)
      (fun base => echoes_plain fun _ _ _ => rfl) fun _ => rfl
  · exact entryPoints_of_echoes (fun base => echoes_recording fun _ _ _ => rfl) fun _ => rfl

theorem entry_points_agree_descending :
    let answer : Int32 → Int32 → Nat → Int32 × Nat := fun a b asked => (ascending b a, asked + 1)
    let body : Body (Nat × List (Asked Question)) := .remembering (recording (reading answer))
    let w : World (Nat × List (Asked Question)) :=
      { machines := #[{ classes := [Class.add ⟨benchmarkClass, []⟩ .staticComparator true body] }]
        memory := (0, []) }
    let sorted := sortFresh .main ⟨0, 1⟩ .benchmark (.whole #[2, 7, 5]) #[2, 7, 5] w
    sorted.result = .ok () ∧ sorted.buffer = #[7, 5, 2] ∧
      sorted.memory.memory.2.map (·.shown) =
        [named bufferBase 1 0 #[7, 2, 5], named bufferBase 2 0 #[7, 2, 5],
          named bufferBase 2 1 #[7, 5, 2]] := by
  intro answer body w sorted
  obtain ⟨-, -, -, hrecord, -⟩ := entry_points_agree answer #[2, 7, 5] 0
  have hsorted := hrecord.fresh ⟨0, 1⟩ .benchmark ⟨0, 0, .onClass, .staticComparator, body⟩ .main w
    rfl rfl ⟨rfl, rfl⟩ rfl
  have hbuffer : (byPosition (ε := Empty) (ofValues answer) #[2, 7, 5] 0).buffer = #[7, 5, 2] := by
    cbv
  have hreplies : sortReplies (ε := Empty) (ofValues answer) #[2, 7, 5] 0 =
      [⟨1, 0, #[7, 2, 5], 1⟩, ⟨2, 0, #[7, 2, 5], 1⟩, ⟨2, 1, #[7, 5, 2], 1⟩] := by
    cbv
  refine ⟨hsorted.result, hsorted.buffer.trans hbuffer, ?_⟩
  rw [hsorted.memory, hreplies]
  rfl

end

end CallBridge.Bridge
