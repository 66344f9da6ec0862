import CallBridge.Proofs.Bridge.Crossings
import CallBridge.Proofs.Bridge.LocalReference

/-!
# Attempts to attach a thread

A thread comes to be attached by entering a runtime, by having its attachment checked, by a call and
by a sort that has something to ask. All of them try it in the same way (`World.tried`), and a
switched-on fault refuses them all in the same way, whether the thread is attached already or not
(`attempted_of_attempt?`).
-/

namespace CallBridge.Managed
variable {σ : Type}

namespace World
variable (w : World σ) (thread : Thread) (id : Nat)

/-- What is known of attachments: who is attached to what, and how many each runtime counted. -/
def ties : List (Thread × Nat) × (Nat → Nat) :=
  (w.attached, fun id => (w.counters id).attachments)

/-- An attempt to attach a thread: it is refused, or the thread is attached then. -/
def tried : World σ := if w.faulty id .attach then w else w.joined thread id

variable {w thread id}

theorem ties_update (w : World σ) (id : Nat) {g : Machine σ → Machine σ}
    (hg : ∀ m, (g m).counters.attachments = m.counters.attachments) :
    (w.update id g).ties = w.ties := by
  have hcounted : ∀ id', ((w.update id g).counters id').attachments =
      (w.counters id').attachments := by
    intro id'
    exact w.read_update id (g := fun o => ((o.map Machine.counters).getD {}).attachments) hg id'
  exact Prod.ext rfl (funext hcounted)

theorem attachments_tie (w : World σ) (thread : Thread) (id id' : Nat) :
    ((w.tie thread id).counters id').attachments = (w.counters id').attachments +
      if id' = id ∧ id < w.machines.size then 1 else 0 := by
  have hcount : (w.tie thread id).counters id' = (w.count id .countAttachment).counters id' := rfl
  rw [hcount, counters_count]
  split <;> rfl

theorem tried_of_faulty (h : w.faulty id .attach) : w.tried thread id = w := if_pos h

theorem tried_of_not_faulty (h : w.faulty id .attach = false) :
    w.tried thread id = w.joined thread id := by
  rw [tried, if_neg (by simp [h])]

theorem ties_asked (w : World σ) (thread : Thread) (id n : Nat) :
    (w.asked thread id (n + 1)).ties = (w.tried thread id).ties := by
  rw [asked, tried]
  split
  · exact w.ties_update id fun _ => rfl
  · exact (w.joined thread id).ties_update id fun _ => rfl

theorem attached_of_ties {w' : World σ} (h : w'.ties = w.ties) : w'.attached = w.attached :=
  congrArg Prod.fst h

theorem attachments_of_ties {w' : World σ} (h : w'.ties = w.ties) (id : Nat) :
    (w'.counters id).attachments = (w.counters id).attachments :=
  congrFun (congrArg Prod.snd h) id

theorem isAttached_of_ties {w' : World σ} (h : w'.ties = w.ties) (thread : Thread) (id : Nat) :
    w'.isAttached thread id = w.isAttached thread id := by
  rw [isAttached, attached_of_ties h, isAttached]

theorem ties_tried {w' : World σ} (hfabric : w'.fabric = w.fabric) (h : w'.ties = w.ties)
    (thread : Thread) (id : Nat) : (w'.tried thread id).ties = (w.tried thread id).ties := by
  have htie : (w'.tie thread id).ties = (w.tie thread id).ties := by
    refine Prod.ext ?_ (funext fun id' => ?_)
    · exact congrArg (· ++ [(thread, id)]) (attached_of_ties h)
    · show ((w'.tie thread id).counters id').attachments = _
      rw [attachments_tie, attachments_of_ties h, size_of_fabric hfabric, ← attachments_tie]
      rfl
  rw [tried, tried, faulty_of_fabric hfabric, joined, joined, isAttached_of_ties h]
  split
  · exact h
  · split
    · exact h
    · exact htie

end World

theorem attach_of_faulty {w : World σ} {thread : Thread} {id : Nat} (h : w.faulty id .attach) :
    attach thread id w = (.error (.attachRefused (World.runtimeNumber id) thread.name), w) :=
  if_pos h

theorem attach_tried (thread : Thread) (id : Nat) (w : World σ) :
    (attach thread id w).2 = w.tried thread id := by
  cases hfault : w.faulty id .attach with
  | true => rw [attach_of_faulty hfault, World.tried_of_faulty hfault]
  | false => rw [attach_of_not_faulty thread hfault, World.tried_of_not_faulty hfault]

theorem overlooks_ties (id : Nat) : Overlooks (World.ties (σ := σ)) id :=
  ⟨fun w _ hg => w.ties_update id hg, fun _ _ => rfl⟩

end CallBridge.Managed

namespace CallBridge.Bridge
open Managed

variable {σ : Type}

namespace Binding
variable (b : Binding σ) (thread : Thread) {w : World σ} {part : Segment}

theorem ties_invoke (q : Question) (w : World σ) :
    (b.invoke thread q w).2.ties = (w.tried thread b.machine).ties := by
  obtain ⟨memory, hasked⟩ := b.invoke_asked thread q w
  rw [hasked]
  exact w.ties_asked thread b.machine 0

theorem invoke_refused (h : w.faulty b.machine .attach) (q : Question) :
    (b.invoke thread q w).1 =
      .error (.attachRefused (World.runtimeNumber b.machine) thread.name) := by
  have hreply := congrArg Prod.fst (b.invoke_reply thread q w)
  rwa [reply, if_pos h] at hreply

theorem ties_sort (hlen : 2 ≤ part.length) (buffer : Array Int32) (w : World σ) :
    (b.sort thread part buffer w).memory.ties = (w.tried thread b.machine).ties := by
  obtain ⟨memory, hasked⟩ := b.follow_asked thread (Sort.segment part.start part.length) buffer w
  have hasks : ((Sort.segment part.start part.length).inquiries (b.comparer thread) buffer
      w).length ≠ 0 := by
    rw [Ne, Sort.length_inquiries_eq_zero_iff]
    omega
  obtain ⟨n, hn⟩ := Nat.exists_eq_succ_of_ne_zero hasks
  rw [sort, hasked, hn]
  exact w.ties_asked thread b.machine n

theorem sort_refused (h : w.faulty b.machine .attach) (hlen : 2 ≤ part.length)
    (buffer : Array Int32) : (b.sort thread part buffer w).result =
      .error (.attachRefused (World.runtimeNumber b.machine) thread.name) := by
  obtain ⟨next, hnext⟩ := @Sort.segment_of_two_le part.start _ hlen
  have hreply : ∀ left right (buffer : Array Int32),
      (b.comparer thread left right buffer w).1 = _ := fun left right buffer =>
    b.invoke_refused thread h (question left right buffer)
  rw [sort, hnext]
  simp only [DecisionTree.follow]
  split
  · next heq =>
    have hanswer := (congrArg Prod.fst heq).symm.trans (hreply ..)
    cases hanswer
  · next heq =>
    have hanswer := (congrArg Prod.fst heq).symm.trans (hreply ..)
    rw [Except.error.inj hanswer]

end Binding

/-- A request to sort answers as the sort ended, and at most adds a diagnostic to what it left. -/
theorem Request.conclude_of_job {q : Request} {thread : Thread} {part : Segment}
    {buffer : Array Int32} (hjob : q.job? = some (thread, part, buffer))
    (outcome : Except Failure (Binding σ)) (again : Bool) (w : World σ) :
    let sorted := sortWithOutcome thread part buffer w outcome
    ∃ notices, q.conclude outcome again w =
      (.sorted sorted.result sorted.buffer, { sorted.memory with notices }) := by
  cases q with
  | bind => cases hjob
  | sort thread buffer =>
    obtain ⟨⟩ := hjob
    exact ⟨_, rfl⟩
  | sortAt thread address count buffer =>
    obtain ⟨⟩ := hjob
    exact ⟨_, rfl⟩
  | sortOrEnd reaction thread address count buffer =>
    obtain ⟨⟩ := hjob
    rw [conclude, conclude.finish, reported_result, reported_buffer, reported]
    split <;> exact ⟨_, rfl⟩

namespace Session
variable {s : Session σ} {op : Operation σ} {thread : Thread} {id : Nat} {b : Binding σ}

/-- A refused attempt: the answer says so, and there are no more attachments, no more contexts and
no more frames than before. -/
structure Refused (s : Session σ) (after : Answer σ × Session σ) (thread : Thread) (id : Nat) :
    Prop where
  answer : after.1.failure? = some (.attachRefused (World.runtimeNumber id) thread.name)
  attached : after.2.world.attached = s.world.attached
  attachments : ∀ id', (after.2.world.counters id').attachments = (s.world.counters id').attachments
  contexts : after.2.contexts = s.contexts
  frames : ∀ id', after.2.world.frames id' = s.world.frames id'

/-- What comes of an operation that tries to attach a thread. -/
structure Attempted (s : Session σ) (after : Answer σ × Session σ) (thread : Thread) (id : Nat) :
    Prop where
  ties : after.2.world.ties = (s.world.tried thread id).ties
  refused : s.world.faulty id .attach = true → Refused s after thread id

/-- An attempt that leaves the fabric alone is refused if its answer says so. -/
theorem Attempted.of_fabric {after : Answer σ × Session σ}
    (ties : after.2.world.ties = (s.world.tried thread id).ties)
    (hfabric : after.2.world.fabric = s.world.fabric) (hcontexts : after.2.contexts = s.contexts)
    (hanswer : s.world.faulty id .attach = true →
      after.1.failure? = some (.attachRefused (World.runtimeNumber id) thread.name)) :
    Attempted s after thread id := by
  refine ⟨ties, fun hfault => ?_⟩
  rw [World.tried_of_faulty hfault] at ties
  exact ⟨hanswer hfault, World.attached_of_ties ties, World.attachments_of_ties ties, hcontexts,
    World.frames_of_fabric hfabric⟩

theorem attempt?_cases (h : s.attempt? op = some (thread, id)) :
    (id < s.world.machines.size ∧ (op = .enter thread id ∨ op = .ensureAttached thread id)) ∨
      ∃ b, op.asker? = some thread ∧ s.reached? op = some b ∧ b.machine = id := by
  have hasked : (op.asker?.bind fun thread => (s.reached? op).map fun b => (thread, b.machine)) =
      some (thread, id) → ∃ b, op.asker? = some thread ∧ s.reached? op = some b ∧
        b.machine = id := by
    intro h
    obtain ⟨thread', hasker, h⟩ := Option.bind_eq_some_iff.1 h
    obtain ⟨b, hb, heq⟩ := Option.map_eq_some_iff.1 h
    obtain ⟨rfl, rfl⟩ := Prod.mk.inj heq
    exact ⟨b, hasker, hb, rfl⟩
  cases op with
  | enter thread' id' =>
    obtain ⟨hid, ⟨⟩⟩ := Option.ite_none_right_eq_some.1 h
    exact .inl ⟨hid, .inl rfl⟩
  | ensureAttached thread' id' =>
    obtain ⟨hid, ⟨⟩⟩ := Option.ite_none_right_eq_some.1 h
    exact .inl ⟨hid, .inr rfl⟩
  | _ => exact .inr (hasked h)

/-! ### Every way to try -/

theorem attempted_enter (hid : id < s.world.machines.size) :
    Attempted s (s.perform (.enter thread id)) thread id := by
  simp only [perform, if_pos hid, act, enter, Act.bind_eq]
  cases hfault : s.world.faulty id .attach with
  | true =>
    rw [attach_of_faulty hfault]
    refine .of_fabric ?_ rfl rfl fun _ => rfl
    rw [World.tried_of_faulty hfault]
  | false =>
    refine ⟨?_, fun h => by cases hfault.symm.trans h⟩
    rw [attach_of_not_faulty thread hfault, World.tried_of_not_faulty hfault]
    exact (s.world.joined thread id).ties_update id fun _ => rfl

theorem attempted_of_act {α : Type} {x : Act σ α} {answer : α → Session σ → Answer σ × Session σ}
    (hties : (x s.world).2.ties = (s.world.tried thread id).ties) (hx : x.Keeps World.fabric)
    (hrefused : s.world.faulty id .attach = true →
      (x s.world).1 = .error (.attachRefused (World.runtimeNumber id) thread.name))
    (hanswer : ∀ a s', (answer a s').2 = s') : Attempted s (s.act x answer) thread id := by
  have hfabric := hx s.world
  rw [act]
  rcases heq : x s.world with ⟨e | a, w⟩ <;> rw [heq] at hties hfabric hrefused
  · refine .of_fabric hties hfabric rfl fun hfault => ?_
    rw [Except.error.inj (hrefused hfault)]
    rfl
  · have hafter : (answer a { s with world := w }).2 = { s with world := w } := hanswer ..
    refine .of_fabric ?_ ?_ ?_ fun hfault => ?_
    · rwa [hafter]
    · rwa [hafter]
    · rw [hafter]
    · cases hrefused hfault

theorem attempted_ensureAttached (hid : id < s.world.machines.size) :
    Attempted s (s.perform (.ensureAttached thread id)) thread id := by
  have hensure : ensureAttached thread id s.world =
      attach thread id (s.world.count id .countCheck) := rfl
  simp only [perform, if_pos hid]
  refine attempted_of_act ?_ (ensureAttached_keeps ignoresAsking_fabric thread) (fun hfault => ?_)
    fun _ _ => rfl
  · rw [hensure, attach_tried]
    exact World.ties_tried (s.world.fabric_count ..) (s.world.ties_update id fun _ => rfl) thread id
  · rw [hensure, attach_of_faulty ((s.world.faulty_count ..).trans hfault)]

/-- A sort through a binding that was established, whatever else it did, if that left the
attachments and the fabric alone. -/
theorem attempted_of_sort {part : Segment} {buffer : Array Int32} {w : World σ}
    {after : Answer σ × Session σ} (hlen : 2 ≤ part.length)
    (hfabric : w.fabric = s.world.fabric) (hties : w.ties = s.world.ties)
    (hanswer : ∃ buffer', after.1 = .sorted (b.sort thread part buffer w).result buffer')
    (hafter : after.2.world.ties = (b.sort thread part buffer w).memory.ties)
    (hafter' : after.2.world.fabric = (b.sort thread part buffer w).memory.fabric)
    (hcontexts : after.2.contexts = s.contexts) : Attempted s after thread b.machine := by
  refine .of_fabric ?_ ?_ hcontexts fun hfault => ?_
  · rw [hafter, b.ties_sort thread hlen, World.ties_tried hfabric hties]
  · rw [hafter', b.fabric_sort, hfabric]
  · obtain ⟨buffer', hsorted⟩ := hanswer
    rw [← World.faulty_of_fabric hfabric] at hfault
    rw [hsorted, b.sort_refused thread hfault hlen]
    rfl

theorem attempted_on {n e : Nat} {name : SourceName} {q : Request} {part : Segment}
    {buffer : Array Int32} (hb : s.given? n e name = some b)
    (hjob : q.job? = some (thread, part, buffer)) (hlen : 2 ≤ part.length) :
    Attempted s (s.perform (q.on n e name)) thread b.machine := by
  obtain ⟨r, c, source, r', w, hr, hbind, hperform⟩ := perform_given hb q
  have hfabric := r.fabric_bind c source s.world
  have hties := r.bind_keeps (overlooks_ties c.machine).resolving (fun _ _ _ _ => rfl) source
    s.world
  rw [hbind] at hfabric hties
  obtain ⟨notices, hconclude⟩ := Request.conclude_of_job hjob (.ok b) r.isBound w
  rw [hperform, hconclude]
  exact attempted_of_sort hlen hfabric hties ⟨_, rfl⟩ rfl rfl rfl

/-- An operation that tries to attach a thread does to attachments what the attempt does, and if it
is refused, nothing. -/
theorem attempted_of_attempt? (h : s.attempt? op = some (thread, id)) :
    Attempted s (s.perform op) thread id := by
  rcases attempt?_cases h with ⟨hid, rfl | rfl⟩ | ⟨b, hasker, hb, rfl⟩
  · exact attempted_enter hid
  · exact attempted_ensureAttached hid
  cases op with
  | invoke thread' holder q =>
    obtain ⟨⟩ := hasker
    rw [perform_invoke hb]
    exact attempted_of_act (b.ties_invoke thread q s.world)
      (b.invoke_keeps ignoresAsking_fabric thread q)
      (fun hfault => b.invoke_refused thread hfault q) fun _ _ => rfl
  | sort thread' n e name buffer =>
    obtain ⟨hlen, ⟨⟩⟩ := Option.ite_none_right_eq_some.1 hasker
    exact attempted_on (q := .sort thread buffer) hb rfl hlen
  | sortAt thread' n e name address count buffer =>
    obtain ⟨hlen, ⟨⟩⟩ := Option.ite_none_right_eq_some.1 hasker
    exact attempted_on (q := .sortAt thread address count buffer) hb rfl hlen
  | sortOrEnd reaction thread' n e name address count buffer =>
    obtain ⟨hlen, ⟨⟩⟩ := Option.ite_none_right_eq_some.1 hasker
    exact attempted_on (q := .sortOrEnd reaction thread address count buffer) hb rfl hlen
  | sortBound thread' holder buffer =>
    obtain ⟨hlen, ⟨⟩⟩ := Option.ite_none_right_eq_some.1 hasker
    have hwhole : 2 ≤ (Segment.whole buffer).length := hlen
    rw [perform_sortBound hb]
    exact attempted_of_sort hwhole rfl rfl ⟨_, rfl⟩ rfl rfl rfl
  | sortFresh thread' e name buffer =>
    obtain ⟨hlen, ⟨⟩⟩ := Option.ite_none_right_eq_some.1 hasker
    have hwhole : 2 ≤ (Segment.whole buffer).length := hlen
    obtain ⟨c, source, w, hres, hperform⟩ := perform_sortFresh hb thread buffer
    have hfabric := resolve_keeps (c := c) ignoresResolving_fabric source s.world
    have hties := resolve_keeps (overlooks_ties c.machine).resolving source s.world
    rw [hres] at hfabric hties
    rw [hperform]
    exact attempted_of_sort hwhole hfabric hties ⟨_, rfl⟩
      ((overlooks_ties b.machine).release _) (b.fabric_release _) rfl
  | _ => cases hasker

end Session
end CallBridge.Bridge
