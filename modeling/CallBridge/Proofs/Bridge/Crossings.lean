import CallBridge.Proofs.Bridge.Apart
import CallBridge.Proofs.Bridge.EntryPoints
import CallBridge.Proofs.Sort.Signs

/-!
# Crossings

A question to a binding crosses into its runtime: the attachment of the thread is checked, and the
method is called. `follow_asked` says exactly what a walk leaves of a world: every question is
counted, in whatever way it ends, and the first one attaches the thread if need be. So a sort
through a binding counts as many crossings as its method gets calls in a sort by value
(`crossings_counted`).
-/

namespace CallBridge.Managed
variable {σ : Type}

/-- So many questions counted, and a thread newly attached for the first one. -/
def Counters.countCrossings (c : Counters) (n : Nat) (isNew : Bool) : Counters :=
  (if isNew then c.countAttachment else c).countQuestions n

namespace World
variable (w : World σ) (thread : Thread) (id : Nat)

/-- The thread is attached, newly if it was not. -/
def joined : World σ := if w.isAttached thread id then w else w.tie thread id

/-- What so many questions leave of a world, but for what managed code remembers: each is checked,
and where threads can be attached, the thread is attached and each question is a call. -/
def asked : Nat → World σ
  | 0 => w
  | n + 1 =>
    if w.faulty id .attach then
      w.count id fun c => { c with attachChecks := c.attachChecks + (n + 1) }
    else (w.joined thread id).countQuestions id (n + 1)

theorem countQuestions_add (m n : Nat) :
    (w.countQuestions id m).countQuestions id n = w.countQuestions id (m + n) := by
  simp only [countQuestions, count, update_update, Machine.count, Counters.countQuestions,
    Nat.add_assoc]

theorem isAttached_joined : (w.joined thread id).isAttached thread id = true := by
  unfold joined
  split
  · next h => exact h
  · simp [isAttached, tie]

theorem faulty_joined (f : Fault) : (w.joined thread id).faulty id f = w.faulty id f := by
  unfold joined
  split
  · rfl
  · exact w.faulty_count id _ f

variable {w}

theorem asked_of_faulty (h : w.faulty id .attach) (n : Nat) :
    w.asked thread id n = w.count id fun c => { c with attachChecks := c.attachChecks + n } := by
  cases n with
  | zero => exact (w.countQuestions_zero id).symm
  | succ n => exact if_pos h

theorem asked_of_not_faulty (h : w.faulty id .attach = false) (n : Nat) :
    w.asked thread id (n + 1) = (w.joined thread id).countQuestions id (n + 1) := by
  rw [asked, if_neg (by simp [h])]

theorem counters_asked (hid : id < w.machines.size) (h : w.faulty id .attach = false) (n : Nat) :
    (w.asked thread id n).counters id =
      (w.counters id).countCrossings n (decide (n ≠ 0) && !w.isAttached thread id) := by
  cases n with
  | zero => rfl
  | succ n =>
    have hsize : id < (w.count id .countAttachment).machines.size := by
      simpa [count, update] using hid
    rw [asked_of_not_faulty thread id h, joined]
    cases hattached : w.isAttached thread id with
    | true =>
      rw [if_pos rfl, countQuestions, counters_count, if_pos ⟨rfl, hid⟩]
      rfl
    | false =>
      have htie : ((w.tie thread id).countQuestions id (n + 1)).counters id =
          ((w.count id .countAttachment).countQuestions id (n + 1)).counters id := rfl
      rw [if_neg Bool.false_ne_true, htie, countQuestions, counters_count, if_pos ⟨rfl, hsize⟩,
        counters_count, if_pos ⟨rfl, hid⟩]
      rfl

theorem asked_asked (n : Nat) (memory : σ) :
    ({ w.asked thread id 1 with memory } : World σ).asked thread id n =
      { w.asked thread id (n + 1) with memory } := by
  cases hfault : w.faulty id .attach with
  | true =>
    have hafter : ({ w.asked thread id 1 with memory } : World σ).faulty id .attach = true := by
      rw [asked_of_faulty thread id hfault]
      exact (w.faulty_count ..).trans hfault
    have hcount : (w.asked thread id 1).count id
        (fun c => { c with attachChecks := c.attachChecks + n }) = w.asked thread id (n + 1) := by
      rw [asked_of_faulty thread id hfault, asked_of_faulty thread id hfault]
      simp only [count, update_update, Machine.count, Nat.add_assoc, Nat.add_comm 1]
    rw [asked_of_faulty thread id hafter, ← hcount]
    rfl
  | false =>
    have hafter : ({ w.asked thread id 1 with memory } : World σ).faulty id .attach = false := by
      rw [asked_of_not_faulty thread id hfault]
      exact ((w.joined thread id).faulty_count ..).trans ((faulty_joined ..).trans hfault)
    cases n with
    | zero => rfl
    | succ n =>
      have hjoined : ({ w.asked thread id 1 with memory } : World σ).joined thread id =
          { w.asked thread id 1 with memory } := by
        refine if_pos ?_
        rw [asked_of_not_faulty thread id hfault]
        exact w.isAttached_joined thread id
      have hcount : (w.asked thread id 1).countQuestions id (n + 1) =
          w.asked thread id (n + 1 + 1) := by
        rw [asked_of_not_faulty thread id hfault, asked_of_not_faulty thread id hfault,
          countQuestions_add, Nat.add_comm]
      rw [asked_of_not_faulty thread id hafter, hjoined, ← hcount]
      rfl

end World

section
variable (thread : Thread) {id : Nat} {w : World σ}

theorem attach_of_not_faulty (h : w.faulty id .attach = false) :
    attach thread id w = (.ok (), w.joined thread id) := by
  unfold attach World.joined
  rw [if_neg (by simp [h])]
  split <;> rfl

theorem exists_call_eq (body : Body σ) (q : Question) (w : World σ) :
    ∃ memory, (call id body q w).2 = { w.count id .countInvocation with memory } := by
  rw [call, Act.bind_eq]
  simp only [Act.change, Act.bind_eq, Act.look]
  cases (w.count id .countInvocation).faulty id .invoke with
  | true => exact ⟨w.memory, rfl⟩
  | false => exact ⟨_, rfl⟩

theorem World.count_joined (w : World σ) :
    ((w.count id .countCheck).joined thread id).count id .countInvocation =
      (w.joined thread id).countQuestions id 1 := by
  unfold joined
  rw [isAttached_count]
  split
  · exact w.update_update id _ _
  · have hcounted : ((w.count id .countCheck).count id .countAttachment).count id .countInvocation =
        (w.count id .countAttachment).countQuestions id 1 := by
      simp only [countQuestions, count, update_update]
      rfl
    exact congrArg (fun v : World σ => { v with attached := w.attached ++ [(thread, id)] }) hcounted

end
end CallBridge.Managed

namespace CallBridge.Bridge
open Managed DecisionTree

variable {σ : Type}

namespace Binding
variable (b : Binding σ) (thread : Thread)

theorem invoke_asked (q : Question) (w : World σ) :
    ∃ memory, (b.invoke thread q w).2 = { w.asked thread b.machine 1 with memory } := by
  have hcounted : ∀ f, (w.count b.machine .countCheck).faulty b.machine f = w.faulty b.machine f :=
    w.faulty_count b.machine _
  have hensure : ensureAttached thread b.machine w =
      attach thread b.machine (w.count b.machine .countCheck) := rfl
  cases hfault : w.faulty b.machine .attach with
  | true =>
    have hrefused : attach thread b.machine (w.count b.machine .countCheck) = _ :=
      if_pos ((hcounted .attach).trans hfault)
    rw [invoke, Act.bind_eq, hensure, hrefused, World.asked_of_faulty thread _ hfault]
    exact ⟨w.memory, rfl⟩
  | false =>
    rw [invoke, Act.bind_eq, hensure, attach_of_not_faulty thread ((hcounted .attach).trans hfault),
      World.asked_of_not_faulty thread _ hfault, ← World.count_joined]
    exact exists_call_eq ..

/-- All that a walk through a binding leaves of a world, but for what managed code remembers. -/
theorem follow_asked {ρ : Type} (t : DecisionTree ρ) (buffer : Array Int32) (w : World σ) :
    ∃ memory, (t.follow (b.comparer thread) buffer w).memory =
      { w.asked thread b.machine (t.inquiries (b.comparer thread) buffer w).length with
        memory } := by
  induction t generalizing buffer w with
  | done r => exact ⟨w.memory, rfl⟩
  | exchange i j next ih => exact ih ..
  | compare left right next ih =>
    obtain ⟨memory, hasked⟩ := b.invoke_asked thread (question left right buffer) w
    rw [inquiries_compare, List.length_cons]
    simp only [follow]
    rcases hreply : b.comparer thread left right buffer w with ⟨e | answer, w₁⟩ <;>
      obtain rfl : w₁ = { w.asked thread b.machine 1 with memory } :=
        (congrArg Prod.snd hreply).symm.trans hasked
    · exact ⟨memory, rfl⟩
    · -- the rest is asked of a world that was asked once already
      obtain ⟨memory', hrest⟩ := ih (sign answer) buffer { w.asked thread b.machine 1 with memory }
      rw [World.asked_asked] at hrest
      exact ⟨memory', hrest⟩

/-- The calls that the method of a binding gets in a sort by value. -/
def methodCalls (buffer : Array Int32) (memory : σ) : List (Inquiry Empty Int32) :=
  Sort.calls (Sort.showing (Sort.named bufferBase) b.body.answer) buffer memory

end Binding

section
variable {b : Binding σ} {w w' : World σ} {cost : Counters → Counters}

theorem Binding.Faultless.length_calls (h : b.Faultless w) (thread : Thread)
    (buffer : Array Int32) :
    (Sort.calls (b.comparer thread) buffer w).length = (b.methodCalls buffer w.memory).length := by
  -- question by question, both get the same answer and leave managed code the same memory
  have hstep : ∀ left right (buf : Array Int32) (w : World σ) m, left < buffer.size →
      right < buffer.size → buf.size = buffer.size → (b.Faultless w ∧ m = w.memory) →
      ∃ a w' a' m', b.comparer thread left right buf w = (.ok a, w') ∧
        Sort.showing (ε := Empty) (Sort.named bufferBase) b.body.answer left right buf m =
          (.ok a', m') ∧ sign a = sign a' ∧ (b.Faultless w' ∧ m' = w'.memory) := by
    rintro left right buf w _ - - - ⟨hw, rfl⟩
    obtain ⟨w', hreply, hmemory, hw'⟩ := hw.invoke_eq thread (question left right buf)
    exact ⟨_, w', _, _, hreply, rfl, rfl, hw', hmemory.symm⟩
  have hplaces := places_of_simulates hstep (Sort.within_segment 0 buffer.size) rfl ⟨h, rfl⟩
  have hlength := congrArg List.length hplaces
  rwa [List.length_map, List.length_map] at hlength

/-- Establishing a binding led from one world to the other, and cost its runtime this. -/
structure Established (w w' : World σ) (b : Binding σ) (cost : Counters → Counters) : Prop where
  machine : b.machine < w.machines.size
  counters : w'.counters b.machine = cost (w.counters b.machine)
  fabric : w'.fabric = w.fabric
  attached : w'.attached = w.attached
  memory : w'.memory = w.memory

theorem established_of_resolve {c : Context} {source : Source}
    (h : resolve c source w = (.ok b, w')) : Established w w' b .countResolution := by
  obtain ⟨entry, hfound, rfl, hw⟩ := exists_entry_of_resolve (congrArg Prod.fst h)
  obtain rfl : w' = w.count c.machine .countResolution := (congrArg Prod.snd h).symm.trans hw
  have hmachine := World.lt_of_found? hfound
  refine ⟨hmachine, ?_, World.fabric_count .., rfl, rfl⟩
  rw [World.counters_count, if_pos ⟨rfl, hmachine⟩]

theorem Registry.established {r r' : Registry σ} {c : Context} {source : Source}
    (hheld : ∀ b, r.binding = some b → b.machine < w.machines.size)
    (h : r.bind c source w = (.ok b, r', w')) :
    Established w w' b (if r.isBound then id else .countResolution) := by
  obtain ⟨_ | b'⟩ := r
  · simp only [Registry.bind, Registry.establish] at h
    rcases hres : resolve c source w with ⟨e | b', w₁⟩ <;> rw [hres] at h <;> cases h
    have hestablished := established_of_resolve hres
    exact ⟨hestablished.machine, hestablished.counters, hestablished.fabric,
      hestablished.attached, hestablished.memory⟩
  · rw [bind_of_bound rfl] at h
    cases h
    exact ⟨hheld _ rfl, rfl, rfl, rfl, rfl⟩

theorem Established.counters_sort (h : Established w w' b cost) (hw : b.Faultless w)
    (thread : Thread) (buffer : Array Int32) :
    (b.sort thread (.whole buffer) buffer w').memory.counters b.machine =
      (cost (w.counters b.machine)).countCrossings (b.methodCalls buffer w.memory).length
        (decide (2 ≤ buffer.size) && !w.isAttached thread b.machine) := by
  have hw' : b.Faultless w' := hw.of_fabric h.fabric
  obtain ⟨memory, hsort⟩ : ∃ memory, (b.sort thread (.whole buffer) buffer w').memory =
      { w'.asked thread b.machine (Sort.calls (b.comparer thread) buffer w').length with memory } :=
    b.follow_asked thread (Sort.segment 0 buffer.size) buffer w'
  have hsize : b.machine < w'.machines.size := World.size_of_fabric h.fabric ▸ h.machine
  have hlength : (Sort.calls (b.comparer thread) buffer w').length =
      (b.methodCalls buffer w.memory).length := by
    rw [hw'.length_calls thread buffer, h.memory]
  have hasks : decide ((Sort.calls (b.comparer thread) buffer w').length ≠ 0) =
      decide (2 ≤ buffer.size) := by
    refine decide_eq_decide.2 ?_
    rw [Sort.calls, Ne, Sort.length_inquiries_eq_zero_iff]
    omega
  have hattached : w'.isAttached thread b.machine = w.isAttached thread b.machine := by
    rw [World.isAttached, h.attached, World.isAttached]
  have hcounted := w'.counters_asked thread b.machine hsize hw'.attach
    (Sort.calls (b.comparer thread) buffer w').length
  rw [hasks, hattached, h.counters, hlength] at hcounted
  rw [hsort, hlength]
  exact hcounted

end

theorem length_inquiries_ofValues {ρ τ : Type} (answer : Int32 → Int32 → τ → Int32 × τ)
    (t : DecisionTree ρ) (buffer : Array Int32) (memory : τ) :
    (t.inquiries (ε := Empty) (Sort.ofValues answer) buffer memory).length =
      (t.replies (ε := Empty) (Sort.ofValues answer) buffer memory).length := by
  induction t generalizing buffer memory with
  | done r => rfl
  | exchange i j next ih => exact ih ..
  | compare left right next ih =>
    rw [inquiries_compare, replies_compare, List.length_cons]
    simp only [Sort.ofValues, ih, List.length_cons]

/-! ### Sorts of a session -/

/-- The thread and the buffer of a sort of a whole buffer. -/
def Operation.sorting? : Operation σ → Option (Thread × Array Int32)
  | .sort thread _ _ _ buffer | .sortFresh thread _ _ buffer | .sortBound thread _ buffer =>
    some (thread, buffer)
  | _ => none

namespace Session

/-- What establishing its binding costs a sort: nothing if there is one, and else a resolution. A
binding made for this one sort is released behind it. -/
def cost (s : Session σ) : Operation σ → Counters → Counters
  | .sort _ n _ _ _ => if (s.bound? (.registry n)).isSome then id else .countResolution
  | .sortFresh .. => fun c => c.countResolution.countRelease
  | _ => id

theorem counters_sorting {s : Session σ} {op : Operation σ} {b : Binding σ} {thread : Thread}
    {buffer : Array Int32} (hop : op.sorting? = some (thread, buffer))
    (hheld : ∀ holder b, s.bound? holder = some b → b.machine < s.world.machines.size)
    (hb : s.reached? op = some b) (hfaultless : b.Faultless s.world) :
    (s.perform op).2.world.counters b.machine =
      (s.cost op (s.world.counters b.machine)).countCrossings
        (b.methodCalls buffer s.world.memory).length
        (decide (2 ≤ buffer.size) && !s.world.isAttached thread b.machine) := by
  cases op with
  | sortBound thread holder buffer =>
    obtain ⟨⟩ := hop
    have hestablished : Established s.world s.world b id :=
      ⟨hheld holder b hb, rfl, rfl, rfl, rfl⟩
    rw [perform_sortBound hb]
    exact hestablished.counters_sort hfaultless thread buffer
  | sort thread n e name buffer =>
    obtain ⟨⟩ := hop
    obtain ⟨r, c, source, r', w, hr, hbind, hperform⟩ := perform_given hb (.sort thread buffer)
    have hbound : s.bound? (.registry n) = r.binding := by
      rw [bound?_registry, hr]
      rfl
    have hestablished := Registry.established (fun b' hb' => hheld _ b' (hbound.trans hb')) hbind
    have hcost : s.cost (.sort thread n e name buffer) =
        if r.isBound then id else .countResolution := by
      rw [cost, hbound]
      rfl
    rw [hcost, show Operation.sort thread n e name buffer = (Request.sort thread buffer).on n e name
      from rfl, hperform]
    exact hestablished.counters_sort hfaultless thread buffer
  | sortFresh thread e name buffer =>
    obtain ⟨⟩ := hop
    obtain ⟨c, source, w, hres, hperform⟩ := perform_sortFresh hb thread buffer
    have hestablished := established_of_resolve hres
    have hsorted := hestablished.counters_sort hfaultless thread buffer
    have hsize : b.machine < (b.sort thread (.whole buffer) buffer w).memory.machines.size := by
      rw [World.size_of_fabric (b.fabric_sort ..), World.size_of_fabric hestablished.fabric]
      exact hestablished.machine
    rw [hperform]
    dsimp only [finish]
    rw [Binding.release, World.counters_count, if_pos ⟨rfl, hsize⟩, hsorted]
    unfold Counters.countCrossings
    split <;> rfl
  | _ => cases hop

theorem cost_keeps (s : Session σ) (op : Operation σ) (c : Counters) :
    (s.cost op c).attachChecks = c.attachChecks ∧ (s.cost op c).invocations = c.invocations ∧
      (s.cost op c).attachments = c.attachments := by
  cases op with
  | sort thread n e name buffer =>
    rw [cost]
    split <;> exact ⟨rfl, rfl, rfl⟩
  | _ => exact ⟨rfl, rfl, rfl⟩

/-- A sort counted so many checks and calls, an attachment if its thread was new, and of all else
what its binding cost. -/
structure Crossed (c c' : Counters) (cost : Counters → Counters) (n : Nat) (isNew : Bool) :
    Prop where
  checks : c'.attachChecks = c.attachChecks + n
  invocations : c'.invocations = c.invocations + n
  attachments : c'.attachments = c.attachments + if isNew then 1 else 0
  rest : { c' with
    attachChecks := c.attachChecks
    invocations := c.invocations
    attachments := c.attachments } = cost c

theorem Crossed.of_keeps {c : Counters} {cost : Counters → Counters}
    (h : (cost c).attachChecks = c.attachChecks ∧ (cost c).invocations = c.invocations ∧
      (cost c).attachments = c.attachments) (n : Nat) (isNew : Bool) :
    Crossed c ((cost c).countCrossings n isNew) cost n isNew := by
  obtain ⟨hchecks, hinvocations, hattachments⟩ := h
  constructor
  · rw [← hchecks]
    cases isNew <;> rfl
  · rw [← hinvocations]
    cases isNew <;> rfl
  · rw [← hattachments]
    cases isNew <;> rfl
  · rw [← hchecks, ← hinvocations, ← hattachments]
    cases isNew <;> rfl

/-- A sort of a session through a binding that nothing keeps from answering: with a registry, with
a binding that is bound already, or with one of its own, on any thread. Its runtime counts a check
and a call for each call that the method gets in a sort by value, and no other runtime counts
anything. For a method that reads its elements, these are the calls of a comparer of values. -/
theorem crossings_counted (memory : σ) (ops : List (Operation σ)) {op : Operation σ}
    {thread : Thread} {buffer : Array Int32} (hop : op.sorting? = some (thread, buffer)) :
    let s := (start memory).run ops
    let w := (s.perform op).2.world
    ∀ b, s.reached? op = some b → b.Faultless s.world →
      let calls := b.methodCalls buffer s.world.memory
      Crossed (s.world.counters b.machine) (w.counters b.machine) (s.cost op) calls.length
          (decide (2 ≤ buffer.size) && !s.world.isAttached thread b.machine) ∧
        (∀ id, id ≠ b.machine → w.counters id = s.world.counters id) ∧
        (buffer.size < 2 → calls = []) ∧
        ∀ answer, b.body.answer = Sort.reading answer →
          calls = Sort.calls (Sort.ofValues answer) buffer s.world.memory ∧
            ((∀ x y m, sign (answer x y m).1 = sign (Sort.ascending x y)) →
              calls.length = Sort.ascendingCalls buffer) := by
  intro s w b hb hfaultless calls
  have hcounted : w.counters b.machine = _ :=
    counters_sorting hop (fun holder b hb => machine_lt_of_bound? memory ops hb) hb hfaultless
  refine ⟨?_, fun id hid => ?_, fun hsize => ?_, fun answer hanswer => ?_⟩
  · rw [hcounted]
    exact .of_keeps (s.cost_keeps op _) ..
  · have hsite : s.site op ≠ some id := by
      rw [site_of_reached? hb]
      exact fun h => hid (Option.some.inj h).symm
    have hpart := congrArg Prod.fst (part_perform s op hsite)
    exact congrArg (fun m : Option (Machine σ) => (m.map (·.counters)).getD {}) hpart
  · exact List.eq_nil_of_length_eq_zero ((Sort.length_inquiries_eq_zero_iff ..).2 hsize)
  · have hcalls : calls = Sort.calls (Sort.ofValues answer) buffer s.world.memory := by
      simp only [calls, Binding.methodCalls, hanswer]
      rfl
    refine ⟨hcalls, fun hsign => ?_⟩
    have hascending := Sort.length_sortReplies_of_ascending hsign buffer s.world.memory
    rwa [hcalls, Sort.calls, length_inquiries_ofValues]

/-- A registry that is bound in the second runtime, used by a new thread from the first one. -/
theorem crossings_counted_worker :
    let s := (start ()).run twoRuntimes
    let op : Operation Unit :=
      .sort (.worker 0) 0 0 (.ofClass benchmarkClass .staticComparator) #[2, 7, 5]
    Crossed (s.world.counters 1) ((s.perform op).2.world.counters 1) id 3 true := by
  intro s op
  let b : Binding Unit := ⟨1, 0, .onClass, .staticComparator, .ascending⟩
  have hb : s.reached? op = some b := rfl
  have hfaultless : b.Faultless s.world := ⟨rfl, rfl⟩
  have hop : op.sorting? = some (.worker 0, #[2, 7, 5]) := rfl
  obtain ⟨hcrossed, -, -, hvalues⟩ := crossings_counted () twoRuntimes hop b hb hfaultless
  obtain ⟨-, hlength⟩ := hvalues (fun x y m => (Sort.ascending x y, m)) rfl
  have hcalls : Sort.ascendingCalls #[2, 7, 5] = 3 := by cbv
  rw [hlength fun _ _ _ => rfl, hcalls] at hcrossed
  exact hcrossed

end Session
end CallBridge.Bridge
