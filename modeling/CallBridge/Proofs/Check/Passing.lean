import CallBridge.Check.Verification
import CallBridge.Proofs.Bench.Inputs
import CallBridge.Proofs.Bridge.EntryPoints
import CallBridge.Proofs.Bridge.Race
import CallBridge.Proofs.Bridge.Untroubled

/-!
# Verifications that pass

`Passes v w P` says that a verification comes to its end in a world, without a reason against the
property, and that `P` holds of its result and of the world it leaves. There is a rule for each way
to put verifications together and for each of their acts, so a check is followed from its first act
to its last.
-/

namespace CallBridge.Check.Verification
open Bridge Managed

variable {σ α β : Type} {w : World σ}

/-- The verification comes to a result, in a world, that `P` holds of. -/
def Passes (v : Verification σ α) (w : World σ) (P : α → World σ → Prop) : Prop :=
  ∃ a w', v w = (.ok a, w') ∧ P a w'

/-! ### Putting verifications together -/

theorem passes_pure {a : α} {P : α → World σ → Prop} (h : P a w) :
    Passes (pure a : Verification σ α) w P := ⟨a, w, rfl, h⟩

theorem passes_look (f : World σ → α) {P : α → World σ → Prop} (h : P (f w) w) :
    Passes (look f) w P := ⟨f w, w, rfl, h⟩

theorem passes_act {x : Act σ α} {a : α} {w' : World σ} {P : α → World σ → Prop}
    (hx : x w = (.ok a, w')) (h : P a w') : Passes (act x) w P :=
  ⟨a, w', by rw [act, hx], h⟩

theorem Passes.bind {x : Verification σ α} {f : α → Verification σ β} {P : α → World σ → Prop}
    {Q : β → World σ → Prop} (hx : Passes x w P) (hf : ∀ a w', P a w' → Passes (f a) w' Q) :
    Passes (x >>= f) w Q := by
  obtain ⟨a, w', hxw, ha⟩ := hx
  obtain ⟨b, w'', hfw, hb⟩ := hf a w' ha
  refine ⟨b, w'', ?_, hb⟩
  simp only [Bind.bind, hxw]
  exact hfw

/-- What holds at the start and is kept by every step holds at the end. -/
theorem passes_fold {f : β → α → Verification σ β} {I : β → World σ → Prop}
    (step : ∀ b a w, I b w → Passes (f b a) w I) (items : List α) {b : β} (h : I b w) :
    Passes (fold f b items) w I := by
  induction items generalizing b w with
  | nil => exact passes_pure h
  | cons a rest ih => exact (step b a w h).bind fun b' w' h' => ih h'

/-- Two verifications that keep what they rely on pass in either order. -/
theorem passes_both {x : Verification σ α} {y : Verification σ β} {P : α → Prop} {Q : β → Prop}
    {I : World σ → Prop} (hx : ∀ w, I w → Passes x w fun a w' => P a ∧ I w')
    (hy : ∀ w, I w → Passes y w fun b w' => Q b ∧ I w') (secondFirst : Bool) (h : I w) :
    Passes (both secondFirst x y) w fun out _ => P out.1 ∧ Q out.2 := by
  unfold both
  cases secondFirst with
  | true =>
    refine (hy w h).bind fun b w' ⟨hb, h'⟩ => (hx w' h').bind fun a _ ⟨ha, _⟩ => ?_
    exact passes_pure ⟨ha, hb⟩
  | false =>
    refine (hx w h).bind fun a w' ⟨ha, h'⟩ => (hy w' h').bind fun b _ ⟨hb, _⟩ => ?_
    exact passes_pure ⟨ha, hb⟩

/-! ### Sorting -/

theorem faultless_of_runs {b : Binding σ} {m : Machine σ} (h : w.Runs b.machine m) :
    b.Faultless w := ⟨h.not_faulty .attach, h.not_faulty .invoke⟩

/-- The main thread is attached, and a source in a context leads it to the ascending order. -/
def Leads (c : Context) (s : Source) (w : World σ) : Prop :=
  w.isAttached .main c.machine ∧
    ∃ m, w.Runs c.machine m ∧ s.Finds m c.frame .ascending

variable {c : Context} {s : Source} {r : Registry σ}

theorem trySort_of_sort {buffer : Array Int32} {sorted : Sorted σ} {r' : Registry σ}
    (h : r.sort .main c s (.whole buffer) buffer w = (sorted, r')) :
    trySort r c s buffer w = (.ok (sorted.result, sorted.buffer, r'), sorted.memory) := by
  rw [trySort, h]

theorem passes_bind (h : Leads c s w) (hr : r.Serves c.machine .ascending) :
    Passes (bind r c s) w fun out w' => out.1.body = .ascending ∧ out.1.Faultless w' := by
  obtain ⟨-, m, hruns, hfinds⟩ := h
  obtain ⟨b, r', w', hbind, hmachine, hbody, -, -, -, -, hruns'⟩ :=
    Registry.bind_of_finds hruns hfinds hr
  rw [← hmachine] at hruns'
  exact ⟨(b, r'), w', by rw [bind, hbind], hbody, faultless_of_runs hruns'⟩

/-- Threads that would all come to the same binding all come to it, and only one of them resolves it,
whatever turns they take. -/
theorem passes_contend {contexts : Nat → Context} {b : Binding σ} {w' : World σ}
    {threads turns : List Nat} (h : ∀ i, Registry.establish (contexts i) s w = (.ok b, w'))
    (hthreads : threads ≠ []) (hturns : turns ⊆ threads) :
    Passes (contend contexts s threads (turns ++ Call.rounds 6 threads)) w fun results w'' =>
      results = threads.map (fun _ => .ok b) ∧ w'' = w' := by
  have hok : ∀ i, ∃ b w', Registry.establish (contexts i) s w = (.ok b, w') := fun i =>
    ⟨b, w', h i⟩
  have hraced := (Raced.start (fun i => Registry.establish (contexts i) s) w threads).run hok hturns
  have hend : ∀ i ∈ threads,
      let after := Call.race (fun i => Registry.establish (contexts i) s) w
        (turns ++ Call.rounds 6 threads)
      after.position i = .finished (.ok b) ∧ after.shared.world = w' := by
    intro i hi after
    obtain ⟨b', hcall, k, hk⟩ := hraced.ends hok hi
    rw [← Crowd.run_append] at hcall hk
    obtain ⟨hb, hw⟩ := Prod.mk.inj ((h k).symm.trans hk)
    obtain rfl := Except.ok.inj hb
    exact ⟨hcall, hw.symm⟩
  obtain ⟨i, hi⟩ := List.exists_mem_of_ne_nil threads hthreads
  exact ⟨_, _, rfl, List.map_congr_left fun i hi => by rw [(hend i hi).1]; rfl, (hend i hi).2⟩

/-- A sort through a registry puts the buffer in order and counts its questions. What led to the
ascending order does so afterwards. -/
theorem passes_sort (h : Leads c s w) (hr : r.Serves c.machine .ascending)
    (buffer : Array Int32) :
    Passes (sort r c s buffer) w fun out w' =>
      out.1 = (Sort.ascendingWalk buffer).1 ∧ out.2.Serves c.machine .ascending ∧
        (∀ s, Leads c s w → Leads c s w') ∧
          (w'.counters c.machine).invocations =
            (w.counters c.machine).invocations + Sort.ascendingCalls buffer := by
  obtain ⟨hattached, m, hruns, hfinds⟩ := h
  obtain ⟨r', w', hsort, -, hserves, hsame, hruns'⟩ :=
    Registry.sort_of_finds hruns hfinds hr hattached buffer
  have htried : Passes (trySort r c s buffer) w fun out w'' =>
      out = (.ok (), (Sort.ascendingWalk buffer).1, r') ∧ w'' = w' :=
    ⟨_, w', trySort_of_sort hsort, rfl, rfl⟩
  refine htried.bind ?_
  rintro _ _ ⟨rfl, rfl⟩
  refine passes_pure ⟨rfl, hserves, ?_, ?_⟩
  · rintro s' ⟨-, m', hm', hs'⟩
    obtain rfl : m' = m := Option.some.inj (hm'.machine.symm.trans hruns.machine)
    refine ⟨?_, _, hruns', hs'.count _⟩
    rwa [World.isAttached, hsame]
  · rw [hruns'.counters, hruns.counters]
    cases r.isBound <;> rfl

/-- A sort through a binding to the ascending order puts an input in order, on any thread. -/
theorem passes_trySortBound {b : Binding σ} (hb : b.body = .ascending) (h : b.Faultless w)
    (thread : Thread) (arrangement : Bench.Arrangement) (length : Nat) (seed : UInt64) :
    Passes (trySortBound b thread (Bench.generate arrangement length seed)) w fun out w' =>
      out = (.ok (), Bench.upward (min length Bench.maxInput)) ∧ b.Faultless w' := by
  have hechoes : Sort.Echoes (fun a b (m : σ) => (Sort.ascending a b, m))
      (Bench.generate arrangement length seed).size (Sort.named bufferBase)
      (Body.ascending (σ := σ)).answer fun m _ => m := Sort.echoes_plain fun _ _ _ => rfl
  obtain ⟨⟨hresult, hbuffer, -⟩, -⟩ :=
    @sort_of_echoes σ σ _ _ w.memory _ (fun _ m _ => m) hechoes b thread w (by rw [hb]) h rfl
  have hreads : Sort.Reads Sort.ascending (Sort.ofValues fun a b (m : σ) => (Sort.ascending a b, m) :
      Comparer σ Empty Int32) := Sort.reads_ofValues fun _ _ _ => rfl
  have hsorted := Bench.byPosition_generate hreads arrangement length seed w.memory
  refine ⟨_, _, rfl, ?_, h.of_fabric (b.fabric_sort ..)⟩
  rw [hresult, hbuffer, hsorted]

end CallBridge.Check.Verification
