import CallBridge.Json.Decoder
import CallBridge.Proofs.Json.Members

/-!
# Records decoded

A record looks at the members of an object twice: each member that is a field is checked, and the
record is built from what the fields find. With one member for each key the first look refuses
nothing that the second accepts, so only the second matters (`Record.decode_of_build`). What a field
finds is `Holds` for one that has to be there and `MayHold` for one that may be missing.
-/

namespace CallBridge

/-! ### What a field finds -/

namespace Json.Members
variable {α : Type}

/-- What the value under a name is decoded as, or what stands for a missing one. -/
def slot (ms : Members) (name : String) (d : Decoder α) (absent : Except DecodeError α) :
    Except DecodeError α :=
  match ms.find? name with
  | some j => d j
  | none => absent

/-- A field that has to be there is decoded. -/
def Holds (ms : Members) (name : String) (d : Decoder α) (a : α) : Prop :=
  ∃ j, ms.find? name = some j ∧ d j = .ok a

/-- A field that may be missing or null is decoded. -/
def MayHold (ms : Members) (name : String) (d : Decoder α) (a : Option α) : Prop :=
  ms.slot name d.nullable (.ok none) = .ok a

section
variable {ms : Members} {name : String} {d : Decoder α}

theorem slot_error_iff {e : DecodeError} {a : α} :
    ms.slot name d (.error e) = .ok a ↔ ms.Holds name d a := by
  unfold slot Holds
  cases ms.find? name <;> simp

theorem holds_string_iff {s : String} :
    ms.Holds name .string s ↔ ms.find? name = some (.str s) := by
  constructor
  · rintro ⟨j, hfind, hj⟩
    cases j <;> cases hj
    exact hfind
  · exact fun hfind => ⟨_, hfind, rfl⟩

theorem mayHold_of_find? {a : Option α} {f : α → Json} (hfind : ms.find? name = a.map f)
    (hd : ∀ x, a = some x → d.nullable (f x) = .ok (some x)) : ms.MayHold name d a := by
  unfold MayHold slot
  rw [hfind]
  cases a with
  | none => rfl
  | some x => exact hd x rfl

theorem nullable_eq_none {j : Json} (h : d.nullable j = .ok none) : j = .null := by
  cases j with
  | null => rfl
  | _ =>
    simp only [Decoder.nullable] at h
    cases hd : d _ <;> rw [hd] at h <;> cases h

theorem MayHold.eq_none_iff {a : Option α} (h : ms.MayHold name d a) :
    a = none ↔ ms.find? name = none ∨ ms.find? name = some .null := by
  unfold MayHold slot at h
  cases hfind : ms.find? name with
  | none =>
    rw [hfind] at h
    cases h
    simp
  | some j =>
    rw [hfind] at h
    constructor
    · rintro rfl
      rw [nullable_eq_none h]
      exact .inr rfl
    · rintro (hj | hj)
      · cases hj
      · obtain rfl := Option.some.inj hj
        cases h
        rfl

/-- A text under a name is decoded as a value. -/
theorem MayHold.exists_of_str {a : Option α} {s : String} (h : ms.MayHold name d a)
    (hfind : ms.find? name = some (.str s)) : ∃ x, a = some x ∧ d (.str s) = .ok x := by
  unfold MayHold slot at h
  rw [hfind] at h
  change (d (.str s)).map some = .ok a at h
  cases hd : d (.str s) with
  | error e =>
    rw [hd] at h
    cases h
  | ok x =>
    rw [hd] at h
    cases h
    exact ⟨x, rfl, rfl⟩

end

end Json.Members

/-! ### Values of one type -/

namespace Decoder

theorem integer_of_mem {name : String} {lowest limit n : Int} (h : lowest ≤ n ∧ n < limit) :
    integer name lowest limit (.int n) = .ok n :=
  if_pos h

theorem unsigned_nat {name : String} {width n : Nat} (h : n < Nat.pow 2 width) :
    unsigned name width (.nat n) = .ok n := by
  change (integer name 0 (Nat.pow 2 width : Nat) (.int n)).map Int.toNat = _
  rw [integer_of_mem ⟨Int.natCast_nonneg n, Int.ofNat_lt.2 h⟩]
  rfl

theorem nullable_unsigned {name : String} {width n : Nat} (h : n < Nat.pow 2 width) :
    (unsigned name width).nullable (.nat n) = .ok (some n) :=
  congrArg (·.map some) (unsigned_nat h)

theorem nullable_strings (paths : List String) :
    (list .string).nullable (.array (paths.map .str)) = .ok (some paths) := by
  have hread : (paths.map Json.str).mapM string = .ok paths := by
    induction paths with
    | nil => rfl
    | cons path paths ih =>
      rw [List.map_cons, List.mapM_cons, ih]
      rfl
  change ((paths.map Json.str).mapM string).map some = _
  rw [hread]
  rfl

section
variable {α : Type} {f : α → String} {all : List α}

theorem choice_str {s : String} {a : α}
    (h : choice (all.map fun a => (f a, a)) (.str s) = .ok a) : a ∈ all ∧ s = f a := by
  simp only [choice] at h
  split at h
  · cases h
  · next name b hfind =>
    cases h
    have hname : name = s := by simpa using List.find?_some hfind
    obtain ⟨b, hb, heq⟩ := List.mem_map.1 (List.mem_of_find?_eq_some hfind)
    cases heq
    exact ⟨hb, hname.symm⟩

end
end Decoder

/-! ### Building and decoding -/

namespace Record
open Json (Members)
variable {α β : Type} {ms : Members} {name : String}

theorem build_extend_iff {r : Record (α → β)} {d : Decoder α} {absent : Except DecodeError α}
    {b : β} : (r.extend name d absent).build ms = .ok b ↔
      ∃ f a, r.build ms = .ok f ∧ ms.slot name d absent = .ok a ∧ f a = b := by
  unfold extend Members.slot
  dsimp only
  cases r.build ms with
  | error e => simp [bind, Except.bind]
  | ok f =>
    cases ms.find? name with
    | some j => cases hd : d j <;> simp [hd, bind, Except.bind, pure, Except.pure]
    | none => cases absent <;> simp [bind, Except.bind, pure, Except.pure]

theorem build_required_iff {r : Record (α → β)} {d : Decoder α} {b : β} :
    (r.required name d).build ms = .ok b ↔
      ∃ f a, r.build ms = .ok f ∧ ms.Holds name d a ∧ f a = b := by
  rw [required, build_extend_iff]
  simp only [Members.slot_error_iff]

theorem build_optional_iff {r : Record (Option α → β)} {d : Decoder α} {b : β} :
    (r.optional name d).build ms = .ok b ↔
      ∃ f a, r.build ms = .ok f ∧ ms.MayHold name d a ∧ f a = b :=
  build_extend_iff

/-- Every field that a record was built from passes its check. -/
def Checked (r : Record α) : Prop :=
  ∀ ms a, r.build ms = .ok a → ∀ field ∈ r.fields, ∀ j, ms.find? field.name = some j →
    field.check j = .ok ()

theorem checked_of (a : α) : (of a).Checked := fun _ _ _ _ h => by cases h

theorem Checked.extend {r : Record (α → β)} (hr : r.Checked) (name : String) (d : Decoder α)
    (absent : Except DecodeError α) : (r.extend name d absent).Checked := by
  intro ms b hbuild field hfield j hfind
  obtain ⟨f, a, hf, ha, -⟩ := build_extend_iff.1 hbuild
  rcases List.mem_append.1 hfield with hfield | hfield
  · exact hr ms f hf field hfield j hfind
  · obtain rfl := List.mem_singleton.1 hfield
    unfold Members.slot at ha
    rw [hfind] at ha
    dsimp only at ha ⊢
    rw [ha]
    rfl

theorem Checked.required {r : Record (α → β)} (hr : r.Checked) (name : String) (d : Decoder α) :
    (r.required name d).Checked :=
  hr.extend name d _

theorem Checked.optional {r : Record (Option α → β)} (hr : r.Checked) (name : String)
    (d : Decoder α) : (r.optional name d).Checked :=
  hr.extend name d.nullable _

theorem checkMembers_of_forall {r : Record α} (h : ∀ m ∈ ms, ∀ field ∈ r.fields,
    field.name = m.1 → field.check m.2 = .ok ()) : r.checkMembers ms = .ok () := by
  induction ms with
  | nil => rfl
  | cons m ms ih =>
    have hrest := ih fun n hn => h n (List.mem_cons_of_mem _ hn)
    unfold checkMembers at hrest ⊢
    simp only [List.forM_eq_forM, List.forM_cons] at hrest ⊢
    cases hfind : r.fields.find? (·.name = m.1) with
    | none => exact hrest
    | some field =>
      have hname : field.name = m.1 := by simpa using List.find?_some hfind
      have hcheck := h m (List.mem_cons_self ..) field (List.mem_of_find?_eq_some hfind) hname
      dsimp only
      rw [hcheck]
      exact hrest

theorem build_of_decode {r : Record α} {title : String} {a : α}
    (h : r.decode title (.object ms) = .ok a) : r.build ms = .ok a := by
  unfold decode at h
  cases hcheck : r.checkMembers ms with
  | error e =>
    simp only [hcheck] at h
    cases h
  | ok u =>
    simp only [hcheck] at h
    exact h

/-- An object with one member for each key is decoded as what is built from its members. -/
theorem decode_of_build {r : Record α} (hr : r.Checked) (hms : ms.Distinct) {title : String} {a : α}
    (h : r.build ms = .ok a) : r.decode title (.object ms) = .ok a := by
  have hcheck : r.checkMembers ms = .ok () := by
    refine checkMembers_of_forall fun m hm field hfield hname => ?_
    exact hr ms a h field hfield m.2 (hname ▸ Members.find?_of_mem hms hm)
  unfold decode
  simp only [hcheck]
  exact h

end Record
end CallBridge
