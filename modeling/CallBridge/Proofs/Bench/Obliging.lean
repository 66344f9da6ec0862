import CallBridge.Bench.Workbench

/-!
# Tasks on an obliging host

A host obliges a benchmark if it grants the memory of the samples and if the log it keeps takes
lines. Whatever is asked of it, it goes on obliging. `Task.Yields` says that a task comes to a
result on every such host, whatever its clocks and files, with a rule for each way to put tasks
together and for each request. The rules rest on what a run of tasks put together comes to.
-/

namespace CallBridge

/-! ### Obliging hosts -/

theorem OpenFile.target_flush (o : OpenFile) : o.flush.2.target = o.target := by
  unfold flush
  split <;> rfl

theorem OpenFile.target_write (o : OpenFile) (text : String) :
    (o.write text).2.target = o.target := by
  have hflush := o.target_flush
  unfold write
  dsimp only
  split
  · rfl
  · split <;> exact hflush

/-- A piece of so many bytes is granted, and a log that is open takes lines. -/
structure Host.Obliges (bytes : Nat) (h : Host) : Prop where
  memory : Memory.reserve h.room bytes = .ok ()
  log : ∀ o, h.log = some o → o.target ≠ .full

namespace Host
variable {bytes : Nat} {h h' : Host}

theorem Obliges.of_same (hh : h.Obliges bytes) (hroom : h'.room = h.room)
    (hlog : h'.log = h.log) : h'.Obliges bytes := by
  obtain ⟨hmemory, hfull⟩ := hh
  rw [← hroom] at hmemory
  rw [← hlog] at hfull
  exact ⟨hmemory, hfull⟩

/-- Only the device that takes nothing refuses a text. -/
theorem exists_deliver {target : Files.Target} (ht : target ≠ .full) (h : Host) (p : Piece) :
    ∃ h', deliver target h p = .ok h' ∧ h'.room = h.room ∧ h'.log = h.log := by
  cases target with
  | full => exact absurd rfl ht
  | stream s => cases s <;> exact ⟨_, rfl, rfl, rfl⟩
  | file name => exact ⟨_, rfl, rfl, rfl⟩
  | null => exact ⟨_, rfl, rfl, rfl⟩

theorem exists_foldlM_deliver {target : Files.Target} (ht : target ≠ .full) (pieces : List Piece)
    (h : Host) :
    ∃ h', pieces.foldlM (deliver target) h = .ok h' ∧ h'.room = h.room ∧ h'.log = h.log := by
  induction pieces generalizing h with
  | nil => exact ⟨h, rfl, rfl, rfl⟩
  | cons p rest ih =>
    obtain ⟨h₁, hp, hroom₁, hlog₁⟩ := exists_deliver ht h p
    obtain ⟨h₂, hrest, hroom₂, hlog₂⟩ := ih h₁
    refine ⟨h₂, ?_, hroom₂.trans hroom₁, hlog₂.trans hlog₁⟩
    rw [List.foldlM_cons, hp]
    exact hrest

theorem Obliges.writeLog (hh : h.Obliges bytes) (text : String) :
    ∃ h', h.writeLog text = .ok h' ∧ h'.Obliges bytes := by
  unfold Host.writeLog
  cases hlog : h.log with
  | none => exact ⟨h, rfl, hh⟩
  | some o =>
    have htarget := hh.log o hlog
    obtain ⟨h₁, hdelivered, hroom, -⟩ := exists_foldlM_deliver htarget (o.write text).1 h
    refine ⟨{ h₁ with log := some (o.write text).2 }, ?_, ?_, ?_⟩
    · change ((o.write text).1.foldlM (deliver (o.write text).2.target) h).map _ = _
      rw [o.target_write, hdelivered]
      rfl
    · rw [← hh.memory, ← hroom]
    · rintro _ ⟨⟩
      rw [o.target_write]
      exact htarget

theorem Obliges.appendLog (hh : h.Obliges bytes) (line : String) :
    ∃ h', h.appendLog line = (.ok (), h') ∧ h'.Obliges bytes := by
  obtain ⟨h₁, hline, hh₁⟩ := hh.writeLog line
  obtain ⟨h₂, hfeed, hh₂⟩ := hh₁.writeLog "\n"
  exact ⟨h₂, by rw [Host.appendLog, hline]; simp only [hfeed], hh₂⟩

end Host

namespace Bench

/-! ### Runs of tasks put together -/

namespace Task
variable {σ α β : Type} {x : Task σ α} {f : α → Task σ β} {b b₁ : Workbench σ} {h h₁ : Host}

theorem bind_of_done {a : α} (hx : x b = .done (.ok a, b₁)) : (x >>= f) b = f a b₁ := by
  change (x b >>= _) = _
  rw [hx]
  rfl

theorem run_bind_ok {a : α} (hx : (x b).run h = ((.ok a, b₁), h₁)) :
    ((x >>= f) b).run h = (f a b₁).run h₁ := by
  refine (Program.run_bind (x b) _ h).trans ?_
  rw [hx]

theorem run_bind_error {e : RunError} (hx : (x b).run h = ((.error e, b₁), h₁)) :
    ((x >>= f) b).run h = ((.error e, b₁), h₁) := by
  refine (Program.run_bind (x b) _ h).trans ?_
  rw [hx]
  rfl

/-- What comes of a task that is put together comes of its second part. -/
theorem exists_of_run_bind {b' : Workbench σ} {h' : Host} {c : β}
    (hrun : ((x >>= f) b).run h = ((.ok c, b'), h')) :
    ∃ a b₁ h₁, (x b).run h = ((.ok a, b₁), h₁) ∧ (f a b₁).run h₁ = ((.ok c, b'), h') := by
  rcases hx : (x b).run h with ⟨⟨e | a, b₁⟩, h₁⟩
  · rw [run_bind_error hx] at hrun
    cases hrun
  · exact ⟨a, b₁, h₁, rfl, (run_bind_ok hx).symm.trans hrun⟩

theorem run_attempt {result : Except RunError α} (hx : (x b).run h = ((result, b₁), h₁)) :
    (x.attempt b).run h = ((.ok result, b₁), h₁) := by
  refine (Program.run_bind (x b) _ h).trans ?_
  rw [hx]
  rfl

end Task

/-! ### Tasks that come to a result -/

/-- On every host that obliges with so many bytes, the task comes to a result and leaves a workbench
that `P` holds of, and the host goes on obliging. -/
def Task.Yields {σ α : Type} (bytes : Nat) (x : Task σ α) (b : Workbench σ)
    (P : α → Workbench σ → Prop) : Prop :=
  ∀ h : Host, h.Obliges bytes →
    ∃ a b' h', (x b).run h = ((.ok a, b'), h') ∧ h'.Obliges bytes ∧ P a b'

namespace Task
open Managed

variable {σ α β : Type} {bytes : Nat} {b : Workbench σ}

theorem yields_pure {a : α} {P : α → Workbench σ → Prop} (h : P a b) :
    Yields bytes (pure a) b P := fun host hh => ⟨a, b, host, rfl, hh, h⟩

theorem Yields.mono {x : Task σ α} {P Q : α → Workbench σ → Prop} (hx : Yields bytes x b P)
    (h : ∀ a b', P a b' → Q a b') : Yields bytes x b Q := by
  intro host hh
  obtain ⟨a, b', host', hrun, hh', ha⟩ := hx host hh
  exact ⟨a, b', host', hrun, hh', h a b' ha⟩

theorem Yields.bind {x : Task σ α} {f : α → Task σ β} {P : α → Workbench σ → Prop}
    {Q : β → Workbench σ → Prop} (hx : Yields bytes x b P)
    (hf : ∀ a b', P a b' → Yields bytes (f a) b' Q) : Yields bytes (x >>= f) b Q := by
  intro host hh
  obtain ⟨a, b₁, host₁, hrun, hh₁, ha⟩ := hx host hh
  obtain ⟨c, b₂, host₂, hrun', hh₂, hc⟩ := hf a b₁ ha host₁ hh₁
  exact ⟨c, b₂, host₂, (run_bind_ok hrun).trans hrun', hh₂, hc⟩

theorem yields_look (f : Workbench σ → α) {P : α → Workbench σ → Prop} (h : P (f b) b) :
    Yields bytes (look f) b P := fun host hh => ⟨f b, b, host, rfl, hh, h⟩

theorem yields_change (f : Workbench σ → Workbench σ) {P : Unit → Workbench σ → Prop}
    (h : P () (f b)) : Yields bytes (change f) b P := fun host hh => ⟨(), f b, host, rfl, hh, h⟩

/-- A request is answered so, and the host goes on obliging. -/
theorem yields_ask {r : Request α} {P : α → Workbench σ → Prop}
    (h : ∀ host : Host, host.Obliges bytes → P (host.serve r).1 b ∧ (host.serve r).2.Obliges bytes) :
    Yields bytes (ask r) b P := by
  intro host hh
  obtain ⟨ha, hh'⟩ := h host hh
  exact ⟨_, b, _, rfl, hh', ha⟩

theorem yields_reading : Yields bytes (ask .reading) b fun _ b' => b' = b :=
  yields_ask fun _ hh => ⟨rfl, hh.of_same rfl rfl⟩

theorem yields_wallTime : Yields bytes (ask .wallTime) b fun _ b' => b' = b :=
  yields_ask fun _ hh => ⟨rfl, hh.of_same rfl rfl⟩

theorem yields_reserve : Yields bytes (reserve bytes) b fun _ b' => b' = b := by
  refine (yields_ask (P := fun a b' => a = .ok () ∧ b' = b) ?_).bind ?_
  · intro host hh
    exact ⟨⟨hh.memory, rfl⟩, hh⟩
  · rintro _ b' ⟨rfl, rfl⟩
    exact yields_pure rfl

theorem yields_report (notices : List Diagnostic.Notice) :
    Yields bytes (report notices) b fun _ b' => b' = b := by
  induction notices with
  | nil => exact yields_pure rfl
  | cons n rest ih =>
    refine yields_wallTime.bind ?_
    rintro now b rfl
    refine (yields_ask (P := fun _ b' => b' = b) ?_).bind ?_
    · intro host hh
      exact ⟨rfl, hh.of_same rfl rfl⟩
    · rintro _ _ rfl
      exact ih

/-- Announcing only counts what was announced. -/
theorem yields_announce :
    Yields bytes announce b fun _ b' =>
      b' = { b with announced := b.world.notices.size } := by
  refine (yields_look _ (P := fun _ b' => b' = b) rfl).bind ?_
  rintro notices b rfl
  refine (yields_change _ (P := fun _ b' => b' = { b with announced := b.world.notices.size })
    rfl).bind ?_
  rintro _ _ rfl
  exact yields_report notices

theorem Yields.attempt {x : Task σ α} {P : α → Workbench σ → Prop} (hx : Yields bytes x b P) :
    Yields bytes x.attempt b fun result b' => ∃ a, result = .ok a ∧ P a b' := by
  intro host hh
  obtain ⟨a, b', host', hrun, hh', ha⟩ := hx host hh
  exact ⟨.ok a, b', host', run_attempt hrun, hh', a, rfl, ha⟩

theorem yields_appendLog (line : String) :
    Yields bytes (ask (.appendLog line)) b fun a b' => a = .ok () ∧ b' = b := by
  refine yields_ask fun host hh => ?_
  obtain ⟨host', happend, hh'⟩ := hh.appendLog line
  rw [show host.serve (.appendLog line) = (.ok (), host') from happend]
  exact ⟨⟨rfl, rfl⟩, hh'⟩

/-- Writing to the log changes no more of a workbench than its log. -/
theorem yields_write (log : Log.Emitter) (entry : Log.Entry) :
    Yields bytes (write log entry) b fun _ b' => ∃ log', b' = { b with log := some log' } := by
  refine (yields_change _ (P := fun _ b' => ∃ log', b' = { b with log := some log' })
    ⟨_, rfl⟩).bind ?_
  rintro _ _ ⟨log', rfl⟩
  refine (yields_appendLog _).bind ?_
  rintro _ _ ⟨rfl, rfl⟩
  exact yields_pure ⟨log', rfl⟩

end Task
end Bench
end CallBridge
