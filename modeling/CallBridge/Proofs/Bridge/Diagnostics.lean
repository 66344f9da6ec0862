import CallBridge.Proofs.Bridge.RawAddress
import CallBridge.Proofs.Bridge.Sites
import CallBridge.Proofs.Diagnostic.Lines

/-!
# What a session writes

A session writes a line when a registry that is unbound is asked for its binding, whether that
succeeds or fails, and one more when a caller who cannot be told of a failure has one
(`Session.lines`). Resolving for oneself, calling and asking for orders write nothing: resolutions
and questions leave the diagnostics alone, so they are as silent within a request as without.
`lines_perform` says this of one operation, and `notices_run` of a run.
-/

namespace CallBridge

namespace Diagnostic

/-- A line that shows these members. -/
def Shows (told : Json.Members) (line : String) : Prop :=
  ∃ ms : Json.Members, line = (Json.object ms).compact ∧
    ∀ key value, (key, value) ∈ told → ms.find? key = some value

/-- A diagnostic shows its level, its event and its fields. -/
theorem shows_render (milliseconds : Nat) (severity : Severity) (event : String)
    {fields : Json.Members} (hdistinct : fields.Distinct)
    (hfields : ∀ key ∈ ["component", "event", "level", "timestamp_ms"],
      ∀ value, (key, value) ∉ fields) :
    Shows (("event", .str event) :: ("level", .str severity.name) :: fields)
      (Notice.render milliseconds ⟨severity, event, .object fields⟩) := by
  have hextra : (extra (.object fields)).Distinct := hdistinct
  obtain ⟨ms, hrecord, -, -, hfind⟩ := exists_members milliseconds severity.name event hextra
  refine ⟨ms, by rw [Notice.render, line, hrecord], fun key value htold => ?_⟩
  rw [hfind]
  simp only [List.mem_cons, Prod.mk.injEq] at htold
  rcases htold with ⟨rfl, rfl⟩ | ⟨rfl, rfl⟩ | hm
  · simp [frame]
  · simp [frame]
  · have hkey : key ∉ ["component", "event", "level", "timestamp_ms"] :=
      fun h => hfields key h value hm
    rw [find?_frame_of_notMem hkey, Option.none_or]
    exact Json.Members.find?_of_mem (m := (key, value)) hdistinct hm

theorem Shows.sublist {told told' : Json.Members} {line : String} (h : Shows told line)
    (hsub : told' ⊆ told) : Shows told' line := by
  obtain ⟨ms, hline, htold⟩ := h
  exact ⟨ms, hline, fun key value hm => htold key value (hsub hm)⟩

end Diagnostic

namespace Managed
open Diagnostic

variable {σ : Type} {id : Nat}

theorem overlooks_notices : Overlooks (World.notices (σ := σ)) id :=
  ⟨fun _ _ _ => rfl, fun _ _ => rfl⟩

theorem overlooksTies_notices : OverlooksTies (World.notices (σ := σ)) id := fun _ _ => rfl

theorem asking_notices : IgnoresAsking (World.notices (σ := σ)) id :=
  overlooks_notices.asking overlooksTies_notices

end Managed

namespace Bridge
open Managed Diagnostic

variable {σ : Type}

/-- The line on how the resolution of a source for a registry ended. -/
def boundNotice (source : Source) : Except Failure (Binding σ) → Notice
  | .ok _ => ⟨.level .info, "binding_established", Registry.establishedFields source⟩
  | .error e => ⟨.level .error, "binding_failed", Registry.failedFields source e⟩

/-- The line on a failure that ends the process. -/
def fatalNotice (reaction : OnFatal) (e : Failure) : Notice :=
  ⟨.fatal, "bridge_fatal", fatalFields reaction e⟩

theorem notices_establish (c : Context) (source : Source) (w : World σ) :
    (Registry.establish c source w).2.notices =
      w.notices.push (boundNotice source (resolve c source w).1) := by
  have hkept : (resolve c source w).2.notices = w.notices :=
    resolve_keeps (f := World.notices) overlooks_notices.resolving source w
  rw [← hkept, Registry.establish]
  rcases resolve c source w with ⟨e | b, w'⟩ <;> rfl

theorem notices_sort (thread : Thread) (part : Segment) (buffer : Array Int32) (w : World σ)
    (outcome : Except Failure (Binding σ)) :
    (sortWithOutcome thread part buffer w outcome).memory.notices = w.notices :=
  sortWithOutcome_view (f := World.notices) (fun _ _ _ => asking_notices) buffer w

/-- The line that tells of a failure that the caller cannot be told of. -/
def fatalLine (reaction : OnFatal) : Answer σ → List Notice
  | .sorted (.error e) _ => [fatalNotice reaction e]
  | _ => []

theorem notices_reported (reaction : OnFatal) (sorted : Sorted σ) (buffer : Array Int32) :
    (reported reaction sorted).memory.notices.toList =
      sorted.memory.notices.toList ++ fatalLine reaction (σ := σ) (.sorted sorted.result buffer) := by
  unfold reported
  cases sorted.result with
  | ok => simp [fatalLine]
  | error e => simp [fatalLine, World.notify, fatalNotice]

theorem shows_boundNotice_error (milliseconds : Nat) (source : Source) (e : Failure) :
    Shows [("event", .str "binding_failed"), ("level", .str "error"), ("error", .str e.message),
        ("kind", .str e.kind)]
      ((boundNotice (σ := σ) source (.error e)).render milliseconds) := by
  refine (shows_render milliseconds (.level .error) "binding_failed" ?_ ?_).sublist ?_
  · simp [Json.Members.Distinct]
  · simp
  · simp [Severity.name, Level.name]

theorem shows_boundNotice_ok (milliseconds : Nat) (source : Source) (b : Binding σ) :
    Shows [("event", .str "binding_established"), ("level", .str "info")]
      ((boundNotice source (.ok b)).render milliseconds) := by
  refine (shows_render milliseconds (.level .info) "binding_established" ?_ ?_).sublist ?_
  · simp [Json.Members.Distinct]
  · simp
  · simp [Severity.name, Level.name]

theorem shows_fatalNotice (milliseconds : Nat) (reaction : OnFatal) (e : Failure) :
    Shows [("event", .str "bridge_fatal"), ("level", .str "fatal"), ("error", .str e.message),
        ("kind", .str e.kind)] ((fatalNotice reaction e).render milliseconds) := by
  refine (shows_render milliseconds .fatal "bridge_fatal" ?_ ?_).sublist ?_
  · simp [Json.Members.Distinct]
  · simp
  · simp [Severity.name]

namespace Request

/-- The line that a request ends with. -/
def fatalLines : Request → Answer σ → List Notice
  | sortOrEnd reaction .., answer => fatalLine reaction answer
  | _, _ => []

theorem mem_fatalLines {q : Request} {answer : Answer σ} {notice : Notice}
    (h : notice ∈ q.fatalLines answer) : ∃ reaction e, notice = fatalNotice reaction e := by
  unfold fatalLines fatalLine at h
  split at h
  · split at h
    · exact ⟨_, _, List.mem_singleton.1 h⟩
    · cases h
  · cases h

theorem notices_conclude (q : Request) (outcome : Except Failure (Binding σ)) (again : Bool)
    (w : World σ) : (q.conclude outcome again w).2.notices.toList =
      w.notices.toList ++ q.fatalLines (q.conclude outcome again w).1 := by
  cases q with
  | bind => cases outcome <;> simp [conclude, fatalLines]
  | sort => simp [conclude, conclude.finish, fatalLines, notices_sort]
  | sortAt => simp [conclude, conclude.finish, fatalLines, notices_sort]
  | sortOrEnd reaction thread address count buffer =>
    have hsort := notices_sort thread (segmentAt address count) buffer w outcome
    simp only [conclude, conclude.finish, fatalLines, reported_result, reported_buffer]
    rw [notices_reported, hsort]

end Request

namespace Session
variable {s : Session σ} {n e : Nat} {name : SourceName}

/-- The line on the binding of a registry that is asked for it. -/
def boundLine (s : Session σ) (n e : Nat) (name : SourceName) : List Notice :=
  match s.registry? n, s.contexts[e]?, s.source? name with
  | some ⟨none⟩, some c, some source => [boundNotice source (Bridge.resolve c source s.world).1]
  | _, _, _ => []

/-- The lines that an operation writes, each with the number of the registry that is asked. -/
def lines (s : Session σ) (op : Operation σ) : List (Nat × Notice) :=
  match op with
  | .bind n e name | .sort _ n e name _ | .sortAt _ n e name _ _ _ =>
    (s.boundLine n e name).map (n, ·)
  | .sortOrEnd reaction _ n e name _ _ _ =>
    (s.boundLine n e name ++ fatalLine reaction (s.perform op).1).map (n, ·)
  | _ => []

/-- The lines that a run of operations writes. -/
def written (s : Session σ) : List (Operation σ) → List (Nat × Notice)
  | [] => []
  | op :: ops => s.lines op ++ (s.perform op).2.written ops

/-! ### One operation -/

theorem notices_bind (r : Registry σ) (c : Context) (source : Source) (w : World σ) :
    (r.bind c source w).2.2.notices.toList = w.notices.toList ++
      if r.isBound then [] else [boundNotice source (Bridge.resolve c source w).1] := by
  obtain ⟨_ | b⟩ := r
  · have hnotices := notices_establish c source w
    rw [Registry.bind]
    rcases hest : Registry.establish c source w with ⟨e | b, w'⟩ <;> rw [hest] at hnotices <;>
      exact (congrArg Array.toList hnotices).trans (by simp [Registry.isBound])
  · simp [Registry.bind_of_bound, Registry.isBound]

theorem boundLine_eq {r : Registry σ} {c : Context} {source : Source}
    (hr : s.registry? n = some r) (hc : s.contexts[e]? = some c)
    (hs : s.source? name = some source) : s.boundLine n e name =
      if r.isBound then [] else [boundNotice source (Bridge.resolve c source s.world).1] := by
  unfold boundLine
  obtain ⟨_ | b⟩ := r <;> simp [hr, hc, hs, Registry.isBound]

theorem lines_eq (s : Session σ) (q : Request) (n e : Nat) (name : SourceName) :
    s.lines (q.on n e name) =
      (s.boundLine n e name ++ q.fatalLines (s.perform (q.on n e name)).1).map (n, ·) := by
  cases q with
  | sortOrEnd => rfl
  | bind | sort | sortAt => exact congrArg (List.map _) (List.append_nil _).symm

/-- A request writes the line on the binding, and at last the one on a failure. -/
theorem lines_on (s : Session σ) (q : Request) (n e : Nat) (name : SourceName) :
    (s.perform (q.on n e name)).2.world.notices.toList =
      s.world.notices.toList ++ (s.lines (q.on n e name)).map (·.2) := by
  rw [lines_eq, List.map_map, Function.comp_def, List.map_id']
  by_cases h : ∃ r c source, s.registry? n = some r ∧ s.contexts[e]? = some c ∧
      s.source? name = some source
  · obtain ⟨r, c, source, hr, hc, hs⟩ := h
    have hbind := notices_bind r c source s.world
    rw [perform_on q hr hc hs, boundLine_eq hr hc hs, ← List.append_assoc]
    rcases hx : r.bind c source s.world with ⟨outcome, r', w⟩
    rw [hx] at hbind
    exact (q.notices_conclude outcome r.isBound w).trans (congrArg (· ++ _) hbind)
  · have hline : s.boundLine n e name = [] := by
      unfold boundLine
      split
      · next c source hr hc hs => exact absurd ⟨_, c, source, hr, hc, hs⟩ h
      · rfl
    rw [perform_on_absent q h, hline]
    cases q <;> exact (List.append_nil _).symm

theorem exists_on_of_lines {op : Operation σ} (h : s.lines op ≠ []) :
    ∃ (q : Request) (n e : Nat) (name : SourceName), op = q.on n e name := by
  cases op with
  | bind n e name => exact ⟨.bind, n, e, name, rfl⟩
  | sort thread n e name buffer => exact ⟨.sort thread buffer, n, e, name, rfl⟩
  | sortAt thread n e name address count buffer =>
    exact ⟨.sortAt thread address count buffer, n, e, name, rfl⟩
  | sortOrEnd reaction thread n e name address count buffer =>
    exact ⟨.sortOrEnd reaction thread address count buffer, n, e, name, rfl⟩
  | _ => exact absurd rfl h

theorem lines_perform (s : Session σ) (op : Operation σ) :
    (s.perform op).2.world.notices.toList =
      s.world.notices.toList ++ (s.lines op).map (·.2) := by
  by_cases hasked : ∃ (q : Request) (n e : Nat) (name : SourceName), op = q.on n e name
  · obtain ⟨q, n, e, name, rfl⟩ := hasked
    exact lines_on s q n e name
  · have hnone : s.lines op = [] := by
      by_contra h
      exact hasked (exists_on_of_lines h)
    have hkept : (s.perform op).2.world.notices = s.world.notices :=
      view_unasked (f := World.notices) s op (fun q n e name h => hasked ⟨q, n, e, name, h⟩)
        (fun _ _ => ⟨overlooks_notices, fun _ _ => overlooksTies_notices⟩) (fun _ _ => rfl)
        fun _ _ _ => rfl
    rw [hkept, hnone]
    simp

theorem passes_lines {op : Operation σ} {line : Nat × Notice} (h : line ∈ s.lines op) :
    line.2.severity.passes .debug = true := by
  obtain ⟨q, n, e, name, rfl⟩ := exists_on_of_lines (List.ne_nil_of_mem h)
  rw [lines_eq, List.map_append, List.mem_append, List.mem_map, List.mem_map] at h
  rcases h with ⟨notice, hnotice, rfl⟩ | ⟨notice, hnotice, rfl⟩
  · unfold boundLine at hnotice
    split at hnotice
    · next c source hr hc hs =>
      rw [List.mem_singleton.1 hnotice]
      cases (Bridge.resolve c source s.world).1 <;> rfl
    · cases hnotice
  · obtain ⟨reaction, e, rfl⟩ := Request.mem_fatalLines hnotice
    rfl

theorem passes_written {ops : List (Operation σ)} {line : Nat × Notice} (h : line ∈ s.written ops) :
    line.2.severity.passes .debug = true := by
  induction ops generalizing s with
  | nil => cases h
  | cons op ops ih =>
    rcases List.mem_append.1 h with h | h
    · exact passes_lines h
    · exact ih h

/-- The diagnostics of a run. -/
theorem notices_run (s : Session σ) (ops : List (Operation σ)) :
    (s.run ops).world.notices.toList = s.world.notices.toList ++ (s.written ops).map (·.2) := by
  induction ops generalizing s with
  | nil => simp [run, written]
  | cons op ops ih =>
    show ((s.perform op).2.run ops).world.notices.toList = _
    rw [ih, lines_perform, written, List.map_append, List.append_assoc]

/-! ### The one line of a registry -/

/-- A registry that will write of no binding any more: it is bound or was dropped. -/
def Spent (s : Session σ) (n : Nat) : Prop :=
  n < s.registries.size ∧ s.registry? n ≠ some ⟨none⟩

theorem size_registries_perform (s : Session σ) (op : Operation σ) :
    s.registries.size ≤ (s.perform op).2.registries.size := by
  rcases holdings_perform s op with h | h
  · exact Nat.le_of_eq (congrArg (·.1.size) h).symm
  cases h with
  | asked q n e name =>
    rcases perform_on_cases s q n e name with ⟨r, c, source, -, -, -, h⟩ | h <;> rw [h]
    simp [setRegistry]
  | newRegistry => simp [perform]
  | dropRegistry n =>
    simp only [perform]
    split <;> simp [setRegistry]
  | resolve e name =>
    refine of_through (P := fun s' => s.registries.size ≤ s'.registries.size) (fun c source _ _ => ?_)
      (Nat.le_refl _)
    exact of_act (P := fun s' => s.registries.size ≤ s'.registries.size)
      (fun _ _ _ => Nat.le_refl _) fun _ _ _ => Nat.le_refl _
  | dropBinding n =>
    simp only [perform]
    split <;> exact Nat.le_refl _

theorem spent_perform (h : s.Spent n) (op : Operation σ) : Session.Spent (s.perform op).2 n := by
  obtain ⟨hlt, hne⟩ := h
  refine ⟨Nat.lt_of_lt_of_le hlt (size_registries_perform s op), ?_⟩
  cases slot_perform s op n with
  | kept hkept => rwa [hkept]
  | dropped _ hdropped => simp [hdropped]
  | bound _ _ _ _ _ hbound => simp [hbound]
  | opened hop absent =>
    -- a number is never given twice
    subst hop
    have hkept : Session.registry? (s.perform .newRegistry).2 n = s.registry? n := by
      simp [perform, Session.registry?, Array.getElem?_push, Nat.ne_of_lt hlt]
    rwa [hkept]

/-- A line that tells of a binding of this registry. -/
def Establishes (n : Nat) (line : Nat × Notice) : Bool :=
  line.1 = n && line.2.event = "binding_established"

/-- The last line of a request tells of no binding. -/
theorem count_fatalLines (q : Request) (m n : Nat) (answer : Answer σ) :
    ((q.fatalLines answer).map (m, ·)).countP (Establishes n) = 0 := by
  rw [List.countP_eq_zero]
  intro line hline
  obtain ⟨notice, hnotice, rfl⟩ := List.mem_map.1 hline
  obtain ⟨reaction, e, rfl⟩ := Request.mem_fatalLines hnotice
  simp [Establishes, fatalNotice]

theorem count_lines (s : Session σ) (q : Request) (m e : Nat) (name : SourceName) (n : Nat) :
    (s.lines (q.on m e name)).countP (Establishes n) =
      ((s.boundLine m e name).map (m, ·)).countP (Establishes n) := by
  rw [lines_eq, List.map_append, List.countP_append, count_fatalLines, Nat.add_zero]

/-- A request that writes of a binding finds the registry unbound and leaves it bound. -/
theorem spent_of_count {op : Operation σ} (h : (s.lines op).countP (Establishes n) ≠ 0) :
    (s.lines op).countP (Establishes n) = 1 ∧ s.registry? n = some ⟨none⟩ ∧
      Session.Spent (s.perform op).2 n := by
  obtain ⟨q, m, e, name, rfl⟩ : ∃ (q : Request) (n e : Nat) (name : SourceName),
      op = q.on n e name := by
    refine exists_on_of_lines (s := s) fun hnil => h ?_
    rw [hnil]
    rfl
  rw [count_lines] at h ⊢
  unfold boundLine at h ⊢
  split at h
  · next c source hr hc hs =>
    rcases bind_unbound c source s.world with ⟨b, w, hres, hb⟩ | ⟨e', w, hres, hb⟩ <;>
      rw [hres] at h ⊢
    · obtain rfl : m = n := by
        by_contra hne
        exact h (by simp [Establishes, hne])
      refine ⟨by simp [Establishes, boundNotice], hr, ?_⟩
      rw [perform_on q hr hc hs, hb]
      refine ⟨?_, ?_⟩
      · simpa [setRegistry] using registry?_lt hr
      · dsimp only
        rw [registry?_setRegistry hr]
        simp
    · exact absurd (by simp [Establishes, boundNotice]) h
  · exact absurd rfl h

/-- A registry that will write of no binding does not write of one now. -/
theorem count_written_of_spent (h : s.Spent n) (ops : List (Operation σ)) :
    (s.written ops).countP (Establishes n) = 0 := by
  induction ops generalizing s with
  | nil => rfl
  | cons op ops ih =>
    rw [written, List.countP_append, ih (spent_perform h op), Nat.add_zero]
    by_contra hcount
    exact h.2 (spent_of_count hcount).2.1

/-- A registry writes of a binding once at most. -/
theorem count_written_le (s : Session σ) (ops : List (Operation σ)) (n : Nat) :
    (s.written ops).countP (Establishes n) ≤ 1 := by
  induction ops generalizing s with
  | nil => exact Nat.zero_le _
  | cons op ops ih =>
    rw [written, List.countP_append]
    by_cases h : (s.lines op).countP (Establishes n) = 0
    · rw [h, Nat.zero_add]
      exact ih _
    · obtain ⟨hone, -, hspent⟩ := spent_of_count h
      rw [hone, count_written_of_spent hspent]

/-- At the lowest threshold a run writes these lines and no others: one for each request of an
unbound registry, on how its resolution ended, and one for each failure of a caller who cannot be
told of it. A registry writes of a binding once at most. -/
theorem diagnostics_told (memory : σ) (ops : List (Operation σ)) :
    let written := (start memory).written ops
    ((start memory).run ops).world.notices.toList = written.map (·.2) ∧
    (∀ ms, Notice.renderAll ms .debug ((start memory).run ops).world.notices.toList =
      written.map (·.2.render ms)) ∧
    (∀ n, written.countP (fun line => line.1 = n && line.2.event = "binding_established") ≤ 1) ∧
    ∀ ms, (∀ source (b : Binding σ),
        Shows [("event", .str "binding_established"), ("level", .str "info")]
          ((boundNotice source (.ok b)).render ms)) ∧
      (∀ source e, Shows [("event", .str "binding_failed"), ("level", .str "error"),
          ("error", .str e.message), ("kind", .str e.kind)]
        ((boundNotice (σ := σ) source (.error e)).render ms)) ∧
      ∀ reaction e, Shows [("event", .str "bridge_fatal"), ("level", .str "fatal"),
          ("error", .str e.message), ("kind", .str e.kind)] ((fatalNotice reaction e).render ms) := by
  intro written
  have hnotices : ((start memory).run ops).world.notices.toList = written.map (·.2) :=
    notices_run (start memory) ops
  refine ⟨hnotices, fun ms => ?_, count_written_le (start memory) ops, fun ms => ?_⟩
  · have hpasses : ∀ notice ∈ written.map (·.2), notice.severity.passes .debug = true := by
      intro notice hnotice
      obtain ⟨line, hline, rfl⟩ := List.mem_map.1 hnotice
      exact passes_written hline
    rw [hnotices, Notice.renderAll, Notice.passing, List.filter_eq_self.2 hpasses, List.map_map]
    rfl
  · exact ⟨shows_boundNotice_ok ms, shows_boundNotice_error ms, shows_fatalNotice ms⟩

-- The same failure: silent where one resolves for oneself, told twice where the process ends by it.
example :
    let source := SourceName.ofClass benchmarkClass .staticComparator
    let ops : List (Operation Unit) :=
      [.create [], .enter .main 0, .newRegistry, .resolve 0 source,
        .sortOrEnd .exit .main 0 0 source none 0 #[]]
    ((start ()).written ops).map (fun line => (line.1, line.2.event)) =
      [(0, "binding_failed"), (0, "bridge_fatal")] := rfl

end Session
end Bridge
end CallBridge
