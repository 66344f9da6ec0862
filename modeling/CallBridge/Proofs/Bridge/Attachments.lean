import CallBridge.Proofs.Bridge.Attempts

/-!
# Attachments over a run

What is known of attachments, the pairs of threads and runtimes and what each runtime counted of
them, goes through three kinds of steps only: a thread joins a runtime, it is detached, or nothing
happens (`Tying`). The pairs live in one list for all runtimes and the counts in each runtime, and
they stay in step over every run (`attachments_in_step`).
-/

namespace CallBridge.Managed.World
variable {σ : Type}

/-- The runtimes a thread is attached to. -/
def runtimesOf (w : World σ) (thread : Thread) : List Nat :=
  (w.attached.filter (·.1 = thread)).map (·.2)

/-- The threads attached to a runtime in a later world, but not in this one. -/
def newcomers (w w' : World σ) (id : Nat) : List Thread :=
  (w'.attachedTo id).filter fun thread => !w.isAttached thread id

variable {w : World σ} {thread : Thread} {id : Nat}

theorem isAttached_iff : w.isAttached thread id = true ↔ (thread, id) ∈ w.attached :=
  List.contains_iff_mem

theorem mem_runtimesOf : id ∈ w.runtimesOf thread ↔ w.isAttached thread id = true := by
  simp [runtimesOf, isAttached_iff]

theorem nodup_runtimesOf (h : w.attached.Nodup) (thread : Thread) :
    (w.runtimesOf thread).Nodup := by
  refine List.Nodup.map_on ?_ (h.filter _)
  rintro ⟨thread₁, id₁⟩ h₁ ⟨thread₂, id₂⟩ h₂ rfl
  obtain rfl : thread₁ = thread := of_decide_eq_true (List.mem_filter.1 h₁).2
  obtain rfl : thread₂ = thread₁ := of_decide_eq_true (List.mem_filter.1 h₂).2
  rfl

theorem mem_attachedTo : thread ∈ w.attachedTo id ↔ w.isAttached thread id = true := by
  simp [attachedTo, isAttached_iff]

theorem newcomers_of_ties {w₁ w₂ : World σ} (h : w₁.ties = w₂.ties) (id : Nat) :
    w.newcomers w₁ id = w.newcomers w₂ id := by
  rw [newcomers, attachedTo, attached_of_ties h, newcomers, attachedTo]

theorem newcomers_eq_nil {w' : World σ} (h : ∀ x ∈ w'.attached, x ∈ w.attached) :
    w.newcomers w' id = [] := by
  refine List.filter_eq_nil_iff.2 fun thread hmem => ?_
  have hattached := isAttached_iff.2 (h _ (isAttached_iff.1 (mem_attachedTo.1 hmem)))
  simp [hattached]

theorem newcomers_tie {id' : Nat} (new : w.isAttached thread id' = false) :
    w.newcomers (w.tie thread id') id = if id = id' then [thread] else [] := by
  have hold : (w.attachedTo id).filter (fun thread => !w.isAttached thread id) = [] :=
    newcomers_eq_nil fun _ h => h
  have hattached : (w.tie thread id').attachedTo id =
      w.attachedTo id ++ if id = id' then [thread] else [] := by
    rw [attachedTo, tie, List.filter_append, List.map_append, attachedTo]
    by_cases hid : id = id'
    · simp [hid]
    · simp [hid, Ne.symm hid]
  rw [newcomers, hattached, List.filter_append, hold, List.nil_append]
  split
  · next hid => simp [hid, new]
  · rfl

theorem ties_create (w : World σ) (classes : List (Class σ)) :
    (w.create classes).ties = w.ties := by
  have hcounted : ∀ id, (w.create classes).counters id = w.counters id := by
    intro id
    simp only [counters, create, Array.getElem?_push]
    split
    · next h => simp [h]
    · rfl
  exact Prod.ext rfl (funext fun id => congrArg Counters.attachments (hcounted id))

end CallBridge.Managed.World

namespace CallBridge.Bridge.Session
open Managed

variable {σ : Type} {s : Session σ} {op : Operation σ}

/-! ### One operation -/

/-- What an operation does to attachments: a thread joins a runtime, leaves one, or neither. -/
inductive Tying (s : Session σ) (op : Operation σ) (w : World σ) : Prop
  | joined (t : Thread) (v : Nat) (h : s.attempt? op = some (t, v))
      (accepted : s.world.faulty v .attach = false) (new : s.world.isAttached t v = false)
      (ties : w.ties = (s.world.tie t v).ties)
  | left (t : Thread) (v : Nat) (hop : op = .detach t v)
      (ties : w.ties = (s.world.detach t v).ties)
  | kept (h : ∀ t v, s.attempt? op = some (t, v) →
        s.world.faulty v .attach = true ∨ s.world.isAttached t v = true)
      (hop : ∀ t v, op = .detach t v → s.world.machines.size ≤ v) (ties : w.ties = s.world.ties)

theorem Tying.of_attempt? {t : Thread} {v : Nat} (h : s.attempt? op = some (t, v)) :
    Tying s op (s.perform op).2.world := by
  have hdetach : ∀ t v, op = .detach t v → s.world.machines.size ≤ v := by
    rintro t v rfl
    cases h
  have honly : ∀ t' v', s.attempt? op = some (t', v') → t' = t ∧ v' = v := by
    intro t' v' h'
    exact Prod.mk.inj (Option.some.inj (h'.symm.trans h))
  obtain ⟨hties, -⟩ := attempted_of_attempt? h
  rw [World.tried] at hties
  split at hties
  · next hfault =>
    refine .kept (fun t' v' h' => ?_) hdetach hties
    obtain ⟨rfl, rfl⟩ := honly t' v' h'
    exact .inl hfault
  · next hfault =>
    rw [World.joined] at hties
    split at hties
    · next hattached =>
      refine .kept (fun t' v' h' => ?_) hdetach hties
      obtain ⟨rfl, rfl⟩ := honly t' v' h'
      exact .inr hattached
    · next hattached =>
      exact .joined t v h (Bool.eq_false_of_not_eq_true hfault)
        (Bool.eq_false_of_not_eq_true hattached) hties

theorem Tying.detach (s : Session σ) (t : Thread) (v : Nat) :
    Tying s (.detach t v) (s.perform (.detach t v)).2.world := by
  rcases Nat.lt_or_ge v s.world.machines.size with hv | hv
  · refine .left t v rfl ?_
    simp only [perform, change, if_pos hv]
  · refine .kept (fun t' v' h => ?_) (fun t' v' hop => ?_) ?_
    · cases h
    · cases hop
      exact hv
    · simp only [perform, change, if_neg (Nat.not_lt_of_ge hv)]

theorem tying_perform (s : Session σ) (op : Operation σ) : Tying s op (s.perform op).2.world := by
  rcases hattempt : s.attempt? op with _ | ⟨t, v⟩
  · by_cases hdetach : ∃ t v, op = .detach t v
    · obtain ⟨t, v, rfl⟩ := hdetach
      exact .detach s t v
    · have hnone : ∀ t v, s.attempt? op ≠ some (t, v) := by
        intro t v h
        cases hattempt.symm.trans h
      have hne : ∀ t v, op ≠ .detach t v := fun t v hop => hdetach ⟨t, v, hop⟩
      refine .kept (fun t v h => absurd h (hnone t v)) (fun t v hop => absurd hop (hne t v)) ?_
      exact view_perform s op (fun _ _ _ _ => rfl)
        (fun id _ => ⟨overlooks_ties id, fun t h => absurd h (hnone t id)⟩)
        (fun ks _ => s.world.ties_create ks) fun t v hop => absurd hop (hne t v)
  · exact .of_attempt? hattempt

/-- The attempt of an operation succeeds. -/
def Joins (s : Session σ) (op : Operation σ) (t : Thread) (v : Nat) : Prop :=
  s.attempt? op = some (t, v) ∧ s.world.faulty v .attach = false

/-- Attached are pairs of a thread and a runtime that there is, each of them once. -/
structure Tidy (w : World σ) : Prop where
  nodup : w.attached.Nodup
  known : ∀ t v, w.isAttached t v = true → v < w.machines.size

/-- After an operation those are attached whom it attached, and those who were and that it did not
detach. -/
theorem isAttached_perform (h : Tidy s.world) (op : Operation σ) (t : Thread) (v : Nat) :
    (s.perform op).2.world.isAttached t v = true ↔
      Joins s op t v ∨ s.world.isAttached t v = true ∧ op ≠ .detach t v := by
  cases tying_perform s op with
  | joined t' v' hattempt accepted new ties =>
    have hdetach : op ≠ .detach t v := by
      rintro rfl
      cases hattempt
    rw [World.isAttached_of_ties ties, World.isAttached_iff, World.isAttached_iff, World.tie,
      List.mem_append, List.mem_singleton]
    constructor
    · rintro (hold | heq)
      · exact .inr ⟨hold, hdetach⟩
      · obtain ⟨rfl, rfl⟩ := Prod.mk.inj heq
        exact .inl ⟨hattempt, accepted⟩
    · rintro (⟨hjoins, -⟩ | ⟨hold, -⟩)
      · exact .inr (Option.some.inj (hjoins.symm.trans hattempt))
      · exact .inl hold
  | left t' v' hop ties =>
    subst hop
    rw [World.isAttached_of_ties ties, World.isAttached_iff, World.isAttached_iff, World.detach,
      List.mem_filter, decide_eq_true_iff]
    constructor
    · rintro ⟨hold, hne⟩
      refine .inr ⟨hold, fun hop => hne ?_⟩
      obtain ⟨rfl, rfl⟩ := Operation.detach.inj hop
      rfl
    · rintro (⟨hattempt, -⟩ | ⟨hold, hop⟩)
      · cases hattempt
      · refine ⟨hold, fun heq => hop ?_⟩
        obtain ⟨rfl, rfl⟩ := Prod.mk.inj heq
        rfl
  | kept hattempt hop ties =>
    rw [World.isAttached_of_ties ties]
    constructor
    · -- a detachment that keeps everything was of a runtime that there is not
      intro hold
      refine .inr ⟨hold, fun hdetach => ?_⟩
      exact absurd (h.known t v hold) (Nat.not_lt_of_ge (hop t v hdetach))
    · rintro (⟨htried, haccepted⟩ | ⟨hold, -⟩)
      · rcases hattempt t v htried with hfault | hold
        · cases haccepted.symm.trans hfault
        · exact hold
      · exact hold

theorem Tidy.step (h : Tidy s.world)
    (hsize : ∀ t v, s.attempt? op = some (t, v) → v < s.world.machines.size) :
    Tidy (s.perform op).2.world := by
  refine ⟨?_, fun t v hattached => Nat.lt_of_lt_of_le ?_ (size_perform s op)⟩
  · cases tying_perform s op with
    | joined t v _ _ new ties =>
      rw [World.attached_of_ties ties]
      refine List.nodup_append.2 ⟨h.nodup, List.nodup_singleton _, ?_⟩
      rintro x hx y hy rfl
      obtain rfl := List.mem_singleton.1 hy
      cases new.symm.trans (World.isAttached_iff.2 hx)
    | left t v _ ties =>
      rw [World.attached_of_ties ties]
      exact h.nodup.filter _
    | kept _ _ ties =>
      rw [World.attached_of_ties ties]
      exact h.nodup
  · rcases (isAttached_perform h op t v).1 hattached with hjoins | ⟨hold, -⟩
    · exact hsize t v hjoins.1
    · exact h.known t v hold

theorem attachments_perform (s : Session σ) (op : Operation σ)
    (hsize : ∀ t v, s.attempt? op = some (t, v) → v < s.world.machines.size) (v : Nat) :
    ((s.perform op).2.world.counters v).attachments = (s.world.counters v).attachments +
      (s.world.newcomers (s.perform op).2.world v).length := by
  cases tying_perform s op with
  | joined t v' hattempt _ new ties =>
    rw [World.attachments_of_ties ties, World.attachments_tie, World.newcomers_of_ties ties,
      World.newcomers_tie new]
    by_cases hv : v = v'
    · subst hv
      rw [if_pos ⟨rfl, hsize t v hattempt⟩, if_pos rfl]
      rfl
    · rw [if_neg (fun h => hv h.1), if_neg hv]
      rfl
  | left t v' _ ties =>
    have hsub : ∀ x ∈ (s.world.detach t v').attached, x ∈ s.world.attached :=
      fun x hx => (List.mem_filter.1 hx).1
    rw [World.attachments_of_ties ties, World.newcomers_of_ties ties, World.newcomers_eq_nil hsub]
    rfl
  | kept _ _ ties =>
    rw [World.attachments_of_ties ties, World.newcomers_of_ties ties,
      World.newcomers_eq_nil fun _ h => h]
    rfl

/-! ### Whole runs -/

theorem machine_lt_of_attempt? {memory : σ} {ops : List (Operation σ)} {t : Thread} {v : Nat}
    (h : ((start memory).run ops).attempt? op = some (t, v)) :
    v < ((start memory).run ops).world.machines.size := by
  have hheld : ∀ holder b, ((start memory).run ops).bound? holder = some b → _ :=
    fun holder b hb => machine_lt_of_bound? memory ops hb
  have hgiven : ∀ n e name b, ((start memory).run ops).given? n e name = some b →
      b.machine < ((start memory).run ops).world.machines.size := by
    intro n e name b hb
    obtain ⟨r, c, source, r', w, hr, hbind, -⟩ := perform_given hb .bind
    refine (Registry.established (fun b' hb' => hheld (.registry n) b' ?_) hbind).machine
    rw [bound?_registry, hr]
    exact hb'
  rcases attempt?_cases h with ⟨hv, -⟩ | ⟨b, hasker, hb, rfl⟩
  · exact hv
  cases op with
  | invoke thread holder q => exact hheld holder b hb
  | sortBound thread holder buffer => exact hheld holder b hb
  | sort thread n e name buffer => exact hgiven n e name b hb
  | sortAt thread n e name address count buffer => exact hgiven n e name b hb
  | sortOrEnd reaction thread n e name address count buffer => exact hgiven n e name b hb
  | sortFresh thread e name buffer =>
    obtain ⟨c, source, w, hres, -⟩ := perform_sortFresh hb thread buffer
    exact (established_of_resolve hres).machine
  | _ => cases hasker

/-- The threads that come to a runtime in a run, one by one: whoever was not attached before an
operation and is after it. -/
def arrivals (v : Nat) (s : Session σ) : List (Operation σ) → List Thread
  | [] => []
  | op :: ops =>
    s.world.newcomers (s.perform op).2.world v ++ (s.perform op).2.arrivals v ops

theorem arrivals_append (v : Nat) (s : Session σ) (ops : List (Operation σ)) (op : Operation σ) :
    s.arrivals v (ops ++ [op]) = s.arrivals v ops ++
      (s.run ops).world.newcomers ((s.run ops).perform op).2.world v := by
  induction ops generalizing s with
  | nil => exact List.append_nil _
  | cons first ops ih =>
    rw [List.cons_append, arrivals, ih, arrivals, List.append_assoc]
    rfl

theorem tidy_run (memory : σ) (ops : List (Operation σ)) : Tidy ((start memory).run ops).world := by
  induction ops using List.reverseRecOn with
  | nil => exact ⟨List.nodup_nil, fun t v h => by cases h⟩
  | append_singleton ops op ih =>
    rw [run_append]
    exact ih.step fun t v h => machine_lt_of_attempt? h

/-- Something happened in a run, and something else not since: it happened last, or it had before
and the last was not that other. -/
theorem exists_since_append {P : List (Operation σ) → Operation σ → Prop} (x : Operation σ)
    (ops : List (Operation σ)) (last : Operation σ) :
    (∃ earlier op later, ops ++ [last] = earlier ++ op :: later ∧ P earlier op ∧ x ∉ later) ↔
      P ops last ∨
        (∃ earlier op later, ops = earlier ++ op :: later ∧ P earlier op ∧ x ∉ later) ∧
          last ≠ x := by
  constructor
  · rintro ⟨earlier, op, later, hops, hP, hlater⟩
    rcases List.eq_nil_or_concat' later with rfl | ⟨later, last', rfl⟩
    · obtain ⟨rfl, heq⟩ := List.append_inj' hops rfl
      obtain rfl := List.head_eq_of_cons_eq heq
      exact .inl hP
    · rw [← List.cons_append, ← List.append_assoc] at hops
      obtain ⟨rfl, heq⟩ := List.append_inj' hops rfl
      obtain rfl := List.head_eq_of_cons_eq heq
      rw [List.mem_append, not_or, List.mem_singleton] at hlater
      exact .inr ⟨⟨earlier, op, later, rfl, hP, hlater.1⟩, fun h => hlater.2 h.symm⟩
  · rintro (hP | ⟨⟨earlier, op, later, rfl, hP, hlater⟩, hne⟩)
    · exact ⟨ops, last, [], rfl, hP, List.not_mem_nil⟩
    · refine ⟨earlier, op, later ++ [last], ?_, hP, ?_⟩
      · rw [List.append_assoc, List.cons_append]
      · rw [List.mem_append, List.mem_singleton]
        exact fun h => h.elim hlater fun heq => hne heq.symm

/-- A thread is attached to a runtime if it joined it in the run and was not detached since. -/
theorem isAttached_run (memory : σ) (ops : List (Operation σ)) (t : Thread) (v : Nat) :
    ((start memory).run ops).world.isAttached t v = true ↔
      ∃ earlier op later, ops = earlier ++ op :: later ∧
        Joins ((start memory).run earlier) op t v ∧ .detach t v ∉ later := by
  -- on the run, operation by operation from its end
  induction ops using List.reverseRecOn with
  | nil =>
    constructor
    · intro h
      cases h
    · rintro ⟨earlier, op, later, hops, -⟩
      cases earlier <;> cases hops
  | append_singleton ops op ih =>
    have hrun : (start memory).run (ops ++ [op]) = (((start memory).run ops).perform op).2 :=
      run_append ..
    rw [hrun, isAttached_perform (tidy_run memory ops) op t v, ih, exists_since_append]

theorem attachments_run (memory : σ) (ops : List (Operation σ)) (v : Nat) :
    (((start memory).run ops).world.counters v).attachments =
      ((start memory).arrivals v ops).length := by
  induction ops using List.reverseRecOn with
  | nil => rfl
  | append_singleton ops op ih =>
    have hstep := attachments_perform ((start memory).run ops) op
      (fun t v h => machine_lt_of_attempt? h) v
    rw [run_append, arrivals_append, List.length_append, ← ih, ← hstep]
    rfl

/-- Over every run: the runtimes of a thread are listed once each; they are those that it joined and
was not detached from since; each runtime has counted the moments at which a thread came to it; an
attempt that is refused changes none of this and begins no frame; and no two contexts of a runtime
have the same frame. -/
theorem attachments_in_step (memory : σ) (ops : List (Operation σ)) :
    let s := (start memory).run ops
    (∀ t, (s.world.runtimesOf t).Nodup ∧
      ∀ v, v ∈ s.world.runtimesOf t ↔ s.world.isAttached t v = true) ∧
    (∀ t v, s.world.isAttached t v = true ↔
      ∃ earlier op later, ops = earlier ++ op :: later ∧
        Joins ((start memory).run earlier) op t v ∧ .detach t v ∉ later) ∧
    (∀ v, (s.world.counters v).attachments = ((start memory).arrivals v ops).length) ∧
    (∀ op t v, s.attempt? op = some (t, v) → s.world.faulty v .attach = true →
      Refused s (s.perform op) t v) ∧
    ∀ (e e' : Nat) (c c' : Context), s.contexts[e]? = some c → s.contexts[e']? = some c' →
      c.machine = c'.machine → c.frame = c'.frame → e = e' := by
  intro s
  have htidy := tidy_run memory ops
  have hframed := framed_run memory ops
  refine ⟨fun t => ⟨World.nodup_runtimesOf htidy.nodup t, fun v => World.mem_runtimesOf⟩,
    isAttached_run memory ops, attachments_run memory ops, fun op t v h hfault => ?_,
    fun e e' c c' hc hc' hmachine hframe => ?_⟩
  · exact (attempted_of_attempt? h).refused hfault
  · rw [hframed.frame e c hc, hframed.frame e' c' hc'] at hframe
    exact place_inj hc' hc hmachine hframe

/-- A thread that was detached and joined again, a worker that joined by a call, and then a refusal
for a thread that is attached already. -/
theorem attachments_in_step_again :
    let earlier := twoRuntimes ++
      [.invoke (.worker 0) (.registry 0) (question 1 0 #[3, 1, 2]), .detach .main 1]
    let s := (start ()).run (earlier ++ [.ensureAttached .main 1, .inject 1 .attach])
    s.world.isAttached .main 1 = true ∧ (s.world.counters 1).attachments = 3 ∧
      Refused s (s.perform (.enter .main 1)) .main 1 := by
  intro earlier s
  obtain ⟨-, hattached, hcounted, hrefused, -⟩ :=
    attachments_in_step () (earlier ++ [.ensureAttached .main 1, .inject 1 .attach])
  have hlater : (.detach .main 1 : Operation Unit) ∉ [.inject 1 .attach] := by simp
  refine ⟨(hattached .main 1).2 ?_, (hcounted 1).trans rfl, hrefused _ _ _ rfl rfl⟩
  exact ⟨earlier, .ensureAttached .main 1, [.inject 1 .attach], rfl, ⟨rfl, rfl⟩, hlater⟩

end CallBridge.Bridge.Session
