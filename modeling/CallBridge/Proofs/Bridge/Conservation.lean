import CallBridge.Proofs.Bridge.Globals
import CallBridge.Proofs.Bridge.LocalReference

/-!
# Conservation of global references

A runtime holds exactly the references of the bindings that are alive, whatever is done in a session
and whatever fails. `Turn` says what one operation can do: it comes to some bindings and keeps them,
or releases the one it came to, or drops one that was alive. `perform_turn` finds which, and
`Conserved` is what every turn preserves. Since the books are balanced before each release, no
release is of a reference that is not held (`references_conserved`).
-/

namespace CallBridge.Managed
variable {σ : Type}

theorem World.globals_update (w : World σ) (machine : Nat) {f : Machine σ → Machine σ}
    (hf : ∀ m, (f m).counters = m.counters) : (w.update machine f).globals = w.globals := by
  funext id
  exact congrArg Counters.globals
    (w.read_update machine (g := fun o => (o.map Machine.counters).getD {}) hf id)

theorem World.globals_create (w : World σ) (classes : List (Class σ)) :
    (w.create classes).globals = w.globals := by
  funext id
  simp only [globals, counters, create, Array.getElem?_push]
  split
  · next h => simp [h]
  · rfl

theorem enter_keeps_globals (thread : Thread) (id : Nat) :
    (enter thread id : Act σ Context).Keeps World.globals := by
  refine (attach_keeps ignoresAsking_globals thread).bind fun _ =>
    (Act.Keeps.change fun w => ?_).bind fun _ => .look _
  exact w.globals_update id fun _ => rfl

theorem newObject_keeps_globals (c : Context) (className : String) :
    (newObject c className : Act σ LocalRef).Keeps World.globals := by
  refine (findClass_keeps World.globals c.machine className).bind fun _ =>
    (Act.Keeps.look _).bind fun _ => (Act.Keeps.change fun w => ?_).bind fun _ => .pure _
  exact w.globals_update c.machine fun _ => rfl

theorem requestHandle_keeps_globals (c : Context) :
    (requestHandle c : Act σ Unit).Keeps World.globals :=
  requestHandle_keeps c fun w => w.globals_count_of_same _ fun _ => rfl

end CallBridge.Managed

namespace CallBridge.Bridge
open Managed

variable {σ : Type}

namespace Session
variable {s s' : Session σ}

/-! ### The bindings alive -/

/-- The bindings that are alive: held by a registry, or on their own. -/
def alive (s : Session σ) : List (Binding σ) :=
  s.registries.toList.filterMap (·.bind (·.binding)) ++ s.bindings.toList.filterMap fun b => b

theorem resolvedIn_filterMap_set {α : Type} (f : α → Option (Binding σ)) {xs : Array α} {n : Nat}
    {x : α} (h : xs[n]? = some x) (y : α) (id : Nat) :
    resolvedIn id ((xs.setIfInBounds n y).toList.filterMap f) + resolvedIn id (f x).toList =
      resolvedIn id (xs.toList.filterMap f) + resolvedIn id (f y).toList := by
  obtain ⟨hn, rfl⟩ := Array.getElem?_eq_some_iff.1 h
  have hlist : xs.toList = xs.toList.take n ++ xs[n] :: xs.toList.drop (n + 1) := by
    rw [← Array.getElem_toList, List.getElem_cons_drop, List.take_append_drop]
  have hset : (xs.setIfInBounds n y).toList =
      xs.toList.take n ++ y :: xs.toList.drop (n + 1) := by
    rw [Array.toList_setIfInBounds, List.set_eq_take_append_cons_drop, if_pos (by simpa using hn)]
  have hcons : ∀ z (zs : List α), (z :: zs).filterMap f = (f z).toList ++ zs.filterMap f := by
    intro z zs
    rw [List.filterMap_cons]
    cases f z <;> rfl
  rw [hset]
  conv_rhs => rw [hlist]
  simp only [List.filterMap_append, hcons, resolvedIn_append]
  omega

theorem alive_setRegistry {n : Nat} {r : Registry σ} (h : s.registry? n = some r)
    (o : Option (Registry σ)) (id : Nat) :
    resolvedIn id (s.setRegistry n o).alive + resolvedIn id r.binding.toList =
      resolvedIn id s.alive + resolvedIn id (o.bind (·.binding)).toList := by
  have hn : s.registries[n]? = some (some r) := Option.join_eq_some_iff.1 h
  have hset := resolvedIn_filterMap_set (·.bind (·.binding)) hn o id
  simp only [alive, setRegistry, resolvedIn_append]
  simp only [Option.bind_some] at hset
  omega

theorem alive_dropBinding {n : Nat} {b : Binding σ} (h : s.binding? n = some b) (w : World σ)
    (id : Nat) :
    resolvedIn id s.alive =
      resolvedIn id (alive { s with bindings := s.bindings.setIfInBounds n none, world := w }) +
        resolvedIn id [b] := by
  have hn : s.bindings[n]? = some (some b) := Option.join_eq_some_iff.1 h
  have hset := resolvedIn_filterMap_set (fun b => b) hn none id
  simp only [alive, resolvedIn_append]
  rw [Option.toList_none, Option.toList_some, show resolvedIn id [] = 0 from rfl] at hset
  omega

theorem alive_newRegistry (s : Session σ) :
    alive { s with registries := s.registries.push (some {}) } = s.alive := by
  simp [alive]

theorem alive_push (s : Session σ) (b : Binding σ) (w : World σ) :
    alive { s with bindings := s.bindings.push (some b), world := w } = s.alive ++ [b] := by
  simp [alive]

/-! ### Resolutions -/

/-- What comes of a context and a source, if the session has them. -/
def resolving (s : Session σ) (context : Nat) (source : SourceName)
    (f : Context → Source → List (Binding σ)) : List (Binding σ) :=
  match s.contexts[context]?, s.source? source with
  | some c, some source => f c source
  | _, _ => []

/-- The bindings that a registry of the session resolves anew. -/
def registryResolved (s : Session σ) (registry : Nat) (c : Context) (source : Source) :
    List (Binding σ) :=
  match s.registry? registry with
  | some r => r.resolved c source s.world
  | none => []

/-- The bindings that the resolution of an operation comes to: one if it succeeds, and none if it
fails or the operation resolves nothing. -/
def resolved (s : Session σ) : Operation σ → List (Binding σ)
  | .lookup context source =>
    s.resolving context source fun c source => outcomes (resolveTarget c source s.world).1
  | .resolve context source | .sortFresh _ context source _ =>
    s.resolving context source fun c source => outcomes (Bridge.resolve c source s.world).1
  | .bind registry context source | .sort _ registry context source _
  | .sortAt _ registry context source _ _ _ | .sortOrEnd _ _ registry context source _ _ _ =>
    s.resolving context source (s.registryResolved registry)
  | _ => []

/-- The bindings that the resolutions of a run come to, in their order. -/
def allResolved (s : Session σ) : List (Operation σ) → List (Binding σ)
  | [] => []
  | op :: ops => s.resolved op ++ (s.perform op).2.allResolved ops

/-! ### One operation -/

/-- An operation drops a binding in a world: the one a direct lookup came to, the one a sort had for
itself, the one of a dropped registry, or one that stood alone. -/
inductive Drops (s : Session σ) : Operation σ → Binding σ → World σ → Prop
  | lookup {e name c source b w} (hc : s.contexts[e]? = some c) (hs : s.source? name = some source)
      (h : resolveTarget c source s.world = (.ok b, w)) : Drops s (.lookup e name) b w
  | sortFresh {thread e name buffer c source b w} (hc : s.contexts[e]? = some c)
      (hs : s.source? name = some source) (h : Bridge.resolve c source s.world = (.ok b, w)) :
      Drops s (.sortFresh thread e name buffer) b (b.sort thread (.whole buffer) buffer w).memory
  | registry {n b} (h : s.registry? n = some ⟨some b⟩) : Drops s (.dropRegistry n) b s.world
  | binding {n b} (h : s.binding? n = some b) : Drops s (.dropBinding n) b s.world

/-- What one operation does to the references: it keeps what it comes to, or it releases the binding
it came to, or it drops one that was alive. -/
inductive Turn (drops : Binding σ → World σ → Prop) (s s' : Session σ) :
    List (Binding σ) → Prop where
  | kept {made : List (Binding σ)} (books : Books s.world s'.world made)
      (alive : ∀ id, resolvedIn id s'.alive = resolvedIn id s.alive + resolvedIn id made) :
    Turn drops s s' made
  | passed {b : Binding σ} {w : World σ} (drop : drops b w) (books : Books s.world w [b])
      (world : s'.world = b.release w)
      (alive : ∀ id, resolvedIn id s'.alive = resolvedIn id s.alive) :
    Turn drops s s' [b]
  | dropped {b : Binding σ} (drop : drops b s.world) (world : s'.world = b.release s.world)
      (alive : ∀ id, resolvedIn id s.alive = resolvedIn id s'.alive + resolvedIn id [b]) :
    Turn drops s s' []

section
variable {drops : Binding σ → World σ → Prop}

theorem Turn.of_globals (hr : s'.registries = s.registries) (hb : s'.bindings = s.bindings)
    (hw : s'.world.globals = s.world.globals) : Turn drops s s' [] := by
  refine .kept (.of_same hw) fun id => ?_
  rw [alive, alive, hr, hb]
  rfl

theorem Turn.refl (s : Session σ) : Turn drops s s [] := .of_globals rfl rfl rfl

theorem Turn.act {α : Type} {x : Act σ α} (hx : x.Keeps World.globals)
    {answer : α → Session σ → Answer σ × Session σ}
    (h : ∀ a w, w.globals = s.world.globals → Turn drops s (answer a { s with world := w }).2 []) :
    Turn drops s (s.act x answer).2 [] := by
  have hw := hx s.world
  unfold Session.act
  split
  · next a w heq =>
    rw [heq] at hw
    exact h a w hw
  · next heq =>
    rw [heq] at hw
    exact .of_globals rfl rfl hw

theorem Turn.change {machine : Nat} {f : World σ → World σ}
    (hf : ∀ w, (f w).globals = w.globals) : Turn drops s (s.change machine f).2 [] := by
  unfold Session.change
  split
  · exact .of_globals rfl rfl (hf _)
  · exact .refl s

theorem Turn.through {e : Nat} {name : SourceName} {f : Context → Source → Answer σ × Session σ}
    {g : Context → Source → List (Binding σ)}
    (h : ∀ c source, s.contexts[e]? = some c → s.source? name = some source →
      Turn drops s (f c source).2 (g c source)) :
    Turn drops s (s.through e name f).2 (s.resolving e name g) := by
  unfold Session.through resolving
  rcases hc : s.contexts[e]? with _ | c
  · exact .refl s
  · rcases hs : s.source? name with _ | source
    · exact .refl s
    · exact h c source hc hs

/-- A resolution that leaves its binding behind, if it comes to one, and the registry with it. -/
theorem Turn.setRegistry {n : Nat} {r r' : Registry σ} (hr : s.registry? n = some r) {w : World σ}
    {made : List (Binding σ)} (books : Books s.world w made)
    (hbinding : r'.binding.toList = r.binding.toList ++ made) :
    Turn drops s { s.setRegistry n (some r') with world := w } made := by
  refine .kept books fun id => ?_
  have halive := alive_setRegistry hr (some r') id
  rw [Option.bind_some, hbinding, resolvedIn_append] at halive
  change resolvedIn id (s.setRegistry n (some r')).alive = _
  omega

end

theorem resolved_on (s : Session σ) (q : Request) (n e : Nat) (name : SourceName) :
    s.resolved (q.on n e name) = s.resolving e name (s.registryResolved n) := by
  cases q <;> rfl

/-- What follows once a registry has given its binding, or failed to, touches no reference. -/
theorem Turn.request (s : Session σ) (q : Request) (n e : Nat) (name : SourceName) :
    Turn (Drops s (q.on n e name)) s (s.perform (q.on n e name)).2
      (s.resolved (q.on n e name)) := by
  rw [resolved_on, resolving]
  by_cases h : ∃ r c source, s.registry? n = some r ∧ s.contexts[e]? = some c ∧
      s.source? name = some source
  · obtain ⟨r, c, source, hr, hc, hs⟩ := h
    obtain ⟨books, hbinding⟩ := r.bind_books c source s.world
    have hconclude : ∀ outcome (w : World σ),
        (q.conclude outcome r.isBound w).2.globals = w.globals := fun outcome w =>
      q.conclude_keeps (fun _ => ignoresAsking_globals) (fun _ _ _ _ => rfl) outcome r.isBound w
    simp only [perform_on q hr hc hs, hc, hs, registryResolved, hr]
    exact .setRegistry hr (books.after (hconclude ..)) hbinding
  · rw [perform_on_absent q h]
    split
    · next c source hc hs =>
      rcases hr : s.registry? n with _ | r
      · simp only [registryResolved, hr]
        exact .refl s
      · exact absurd ⟨r, c, source, hr, hc, hs⟩ h
    · exact .refl s

theorem Turn.lookup (s : Session σ) (e : Nat) (name : SourceName) :
    Turn (Drops s (.lookup e name)) s (s.perform (.lookup e name)).2
      (s.resolved (.lookup e name)) := by
  refine .through fun c source hc hs => ?_
  have books := resolveTarget_books c source s.world
  unfold Session.act
  rcases hres : resolveTarget c source s.world with ⟨e | b, w⟩ <;> rw [hres] at books
  · exact .kept books fun _ => rfl
  · exact .passed (.lookup hc hs hres) books rfl fun _ => rfl

theorem Turn.sortFresh (s : Session σ) (thread : Thread) (e : Nat) (name : SourceName)
    (buffer : Array Int32) :
    Turn (Drops s (.sortFresh thread e name buffer)) s
      (s.perform (.sortFresh thread e name buffer)).2
      (s.resolved (.sortFresh thread e name buffer)) := by
  refine .through fun c source hc hs => ?_
  have books := resolve_books c source s.world
  unfold Bridge.sortFresh sortFreshWith
  rcases hres : Bridge.resolve c source s.world with ⟨e | b, w⟩ <;> rw [hres] at books
  · exact .kept books fun _ => rfl
  · -- The sort may fail at any question; the release comes behind it all the same.
    have hsort := b.sort_keeps ignoresAsking_globals thread (.whole buffer) buffer w
    exact .passed (.sortFresh hc hs hres) (books.after hsort) rfl fun _ => rfl

theorem Turn.resolve (s : Session σ) (e : Nat) (name : SourceName) :
    Turn (Drops s (.resolve e name)) s (s.perform (.resolve e name)).2
      (s.resolved (.resolve e name)) := by
  refine .through fun c source hc hs => ?_
  have books := resolve_books c source s.world
  unfold Session.act
  rcases hres : Bridge.resolve c source s.world with ⟨e | b, w⟩ <;> rw [hres] at books
  · exact .kept books fun _ => rfl
  · refine .kept books fun id => ?_
    rw [alive_push, resolvedIn_append]
    rfl

theorem perform_turn (s : Session σ) (op : Operation σ) :
    Turn (Drops s op) s (s.perform op).2 (s.resolved op) := by
  cases op with
  | create classes => exact .of_globals rfl rfl (s.world.globals_create classes)
  | define machine c => exact .change fun w => w.globals_update machine fun _ => rfl
  | inject machine f => exact .change fun w => w.globals_update machine fun _ => rfl
  | clearFaults machine => exact .change fun w => w.globals_update machine fun _ => rfl
  | detach thread machine => exact .change fun w => rfl
  | enter thread machine =>
    simp only [perform]
    split
    · exact .act (enter_keeps_globals thread machine) fun _ _ hw => .of_globals rfl rfl hw
    · exact .refl s
  | ensureAttached thread machine =>
    simp only [perform]
    split
    · exact .act (ensureAttached_keeps ignoresAsking_globals thread)
        fun _ _ hw => .of_globals rfl rfl hw
    · exact .refl s
  | newObject context className =>
    simp only [perform]
    split
    · exact .act (newObject_keeps_globals _ className) fun _ _ hw => .of_globals rfl rfl hw
    · exact .refl s
  | requestHandle context =>
    simp only [perform]
    split
    · exact .act (requestHandle_keeps_globals _) fun _ _ hw => .of_globals rfl rfl hw
    · exact .refl s
  | lookup e name => exact .lookup s e name
  | newRegistry =>
    refine .kept (.of_same rfl) fun id => ?_
    simp only [perform]
    rw [alive_newRegistry]
    rfl
  | dropRegistry n =>
    simp only [perform]
    rcases hr : s.registry? n with _ | ⟨_ | b⟩
    · exact .refl s
    · refine .kept (.of_same rfl) fun id => ?_
      exact (alive_setRegistry hr none id).trans (Nat.add_zero _)
    · refine .dropped (.registry hr) rfl fun id => ?_
      exact (alive_setRegistry hr none id).symm
  | bind n e name => exact .request s .bind n e name
  | resolve e name => exact .resolve s e name
  | dropBinding n =>
    simp only [perform]
    rcases hb : s.binding? n with _ | b
    · exact .refl s
    · exact .dropped (.binding hb) rfl fun id => alive_dropBinding hb _ id
  | sort thread n e name buffer => exact .request s (.sort thread buffer) n e name
  | sortFresh thread e name buffer => exact .sortFresh s thread e name buffer
  | sortBound thread holder buffer =>
    simp only [perform]
    split
    · next b _ => exact .of_globals rfl rfl (b.sort_keeps ignoresAsking_globals thread _ buffer _)
    · exact .refl s
    · exact .refl s
  | sortAt thread n e name address count buffer =>
    exact .request s (.sortAt thread address count buffer) n e name
  | sortOrEnd reaction thread n e name address count buffer =>
    exact .request s (.sortOrEnd reaction thread address count buffer) n e name
  | invoke thread holder q =>
    simp only [perform]
    split
    · next b _ =>
      exact .act (b.invoke_keeps ignoresAsking_globals thread q)
        fun _ _ hw => .of_globals rfl rfl hw
    · exact .refl s
    · exact .refl s

/-! ### The balance -/

/-- Where the references of a session stand after its resolutions came to these bindings. -/
structure Conserved (s : Session σ) (made : List (Binding σ)) : Prop where
  live : ∀ id, (s.world.globals id).live = resolvedIn id s.alive
  created : ∀ id, (s.world.globals id).created = resolvedIn id made
  live_le : ∀ id, (s.world.globals id).live ≤ (s.world.globals id).created
  created_le : ∀ id, (s.world.globals id).created ≤ (s.world.globals id).lookups

theorem Conserved.start (memory : σ) : Conserved (start memory) [] :=
  ⟨fun _ => rfl, fun _ => rfl, fun _ => Nat.le_refl 0, fun _ => Nat.le_refl 0⟩

theorem Conserved.turn {drops : Binding σ → World σ → Prop} {made new : List (Binding σ)}
    (h : Conserved s made) (ht : Turn drops s s' new) : Conserved s' (made ++ new) := by
  cases ht with
  | kept books halive =>
    refine ⟨fun id => ?_, fun id => ?_, fun id => ?_, fun id => ?_⟩
    · rw [books.live, h.live, halive]
    · rw [books.created, h.created, resolvedIn_append]
    · rw [books.live, books.created]
      exact Nat.add_le_add_right (h.live_le id) _
    · rw [books.created]
      exact Nat.le_trans (Nat.add_le_add_right (h.created_le id) _) (books.lookups id)
  | @passed b w _ books hworld halive =>
    have hlive : ∀ id, (s'.world.globals id).live = (s.world.globals id).live := by
      intro id
      rw [hworld, b.globals_release, books.live, Nat.add_sub_cancel]
    have hcreated : ∀ id, (s'.world.globals id).created =
        (s.world.globals id).created + resolvedIn id [b] := by
      intro id
      rw [hworld, b.globals_release, books.created]
    refine ⟨fun id => ?_, fun id => ?_, fun id => ?_, fun id => ?_⟩
    · rw [hlive, h.live, halive]
    · rw [hcreated, h.created, resolvedIn_append]
    · rw [hlive, hcreated]
      exact Nat.le_add_right_of_le (h.live_le id)
    · rw [hcreated, hworld, b.globals_release]
      exact Nat.le_trans (Nat.add_le_add_right (h.created_le id) _) (books.lookups id)
  | @dropped b _ hworld halive =>
    rw [List.append_nil]
    refine ⟨fun id => ?_, fun id => ?_, fun id => ?_, fun id => ?_⟩ <;>
      rw [hworld, b.globals_release]
    · have := halive id
      rw [← h.live] at this
      simp only
      omega
    · exact h.created id
    · exact Nat.le_trans (Nat.sub_le _ _) (h.live_le id)
    · exact h.created_le id

theorem Conserved.run {made : List (Binding σ)} (h : Conserved s made) (ops : List (Operation σ)) :
    Conserved (s.run ops) (made ++ s.allResolved ops) := by
  induction ops generalizing s made with
  | nil =>
    rw [allResolved, List.append_nil]
    exact h
  | cons op ops ih =>
    have hstep := ih (h.turn (perform_turn s op))
    rwa [List.append_assoc] at hstep

/-! ### Releases -/

variable {op : Operation σ} {b : Binding σ} {w : World σ}

theorem Drops.release (h : Drops s op b w) : (s.perform op).2.world = b.release w := by
  cases h with
  | lookup hc hs h => simp only [perform, through_eq hc hs, Session.act, h]
  | sortFresh hc hs h =>
    simp only [perform, through_eq hc hs, finish, Bridge.sortFresh, sortFreshWith, h]
  | registry h => simp only [perform, h, Registry.release]
  | binding h => simp only [perform, h]

theorem Drops.held {made : List (Binding σ)} (h : Drops s op b w) (hs : Conserved s made) :
    0 < (w.globals b.machine).live := by
  have hself : resolvedIn b.machine [b] = 1 := by rw [resolvedIn_singleton, if_pos rfl]
  cases h with
  | @lookup _ _ c source _ _ _ _ h =>
    have books := resolveTarget_books c source s.world
    rw [h] at books
    have hlive : (w.globals b.machine).live = _ + resolvedIn b.machine [b] :=
      books.live b.machine
    omega
  | @sortFresh thread _ _ buffer c source _ w _ _ h =>
    have books := resolve_books c source s.world
    rw [h] at books
    have hlive : (w.globals b.machine).live = _ + resolvedIn b.machine [b] :=
      books.live b.machine
    rw [b.sort_keeps ignoresAsking_globals thread (.whole buffer) buffer w]
    omega
  | registry h =>
    have halive : _ + resolvedIn b.machine [b] = resolvedIn b.machine s.alive + 0 :=
      alive_setRegistry h none b.machine
    rw [hs.live]
    omega
  | binding h =>
    have halive := alive_dropBinding h s.world b.machine
    rw [hs.live]
    omega

/-- An operation that drops no binding releases nothing. -/
theorem drops_or_books (s : Session σ) (op : Operation σ) :
    (∃ b w, Drops s op b w) ∨ Books s.world (s.perform op).2.world (s.resolved op) := by
  have hturn := perform_turn s op
  generalize s.resolved op = made at hturn ⊢
  cases hturn with
  | kept books => exact .inr books
  | passed drop => exact .inl ⟨_, _, drop⟩
  | dropped drop => exact .inl ⟨_, _, drop⟩

theorem alive_lookup (s : Session σ) (e : Nat) (name : SourceName) :
    (s.perform (.lookup e name)).2.alive = s.alive := by
  simp only [perform, Session.through, Session.act]
  split
  · split <;> rfl
  · rfl

theorem alive_sortFresh (s : Session σ) (thread : Thread) (e : Nat) (name : SourceName)
    (buffer : Array Int32) :
    (s.perform (.sortFresh thread e name buffer)).2.alive = s.alive := by
  simp only [perform, Session.through]
  split <;> rfl

end Session

open Session

/-- In every run a runtime holds as many references as bindings resolved in it are alive, and has
made as many as resolutions in it succeeded. A release is always of a reference that is held. What a
direct lookup or a sort comes to for itself is gone when it ends, however it ends. -/
theorem references_conserved (memory : σ) (ops : List (Operation σ)) :
    let s := (start memory).run ops
    let made := (start memory).allResolved ops
    (∀ id, (s.world.globals id).live = resolvedIn id s.alive ∧
      (s.world.globals id).created = resolvedIn id made ∧
      (s.world.globals id).live ≤ (s.world.globals id).created ∧
      (s.world.globals id).created ≤ (s.world.globals id).lookups) ∧
    (∀ op b w, Drops s op b w →
      (s.perform op).2.world = b.release w ∧ 0 < (w.globals b.machine).live) ∧
    (∀ op, (∃ b w, Drops s op b w) ∨ Books s.world (s.perform op).2.world (s.resolved op)) ∧
    ∀ e name id,
      ((s.perform (.lookup e name)).2.world.globals id).live = (s.world.globals id).live ∧
      ∀ thread buffer, ((s.perform (.sortFresh thread e name buffer)).2.world.globals id).live =
        (s.world.globals id).live := by
  intro s made
  have h : Conserved s made := (Conserved.start memory).run ops
  -- References held are counted by the bindings alive, before an operation and after it.
  have hlive : ∀ op id, (s.perform op).2.alive = s.alive →
      ((s.perform op).2.world.globals id).live = (s.world.globals id).live := by
    intro op id halive
    rw [(h.turn (perform_turn s op)).live, halive, h.live]
  refine ⟨fun id => ⟨h.live id, h.created id, h.live_le id, h.created_le id⟩, ?_,
    drops_or_books s, fun e name id => ⟨?_, fun thread buffer => ?_⟩⟩
  · exact fun op b w hdrops => ⟨hdrops.release, hdrops.held h⟩
  · exact hlive _ id (alive_lookup s e name)
  · exact hlive _ id (alive_sortFresh s thread e name buffer)

/-- Of four references made, the one in the registry is left. -/
example :
    let source : SourceName := .ofClass benchmarkClass .staticComparator
    let ops : List (Operation Unit) :=
      [.create Class.benchmarks, .enter .main 0, .newRegistry, .bind 0 0 source, .lookup 0 source,
        .resolve 0 source, .sortFresh .main 0 source #[2, 1], .dropBinding 0]
    ((start ()).run ops).world.globals 0 = ⟨4, 4, 1⟩ := by
  cbv

end CallBridge.Bridge
