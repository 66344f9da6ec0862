import CallBridge.Proofs.Json.ReadBack
import CallBridge.Proofs.Json.Records

/-!
# Values written and decoded

`Returns d depth j a`: the value `j`, nested at most so deep, is written as a text that reads back,
and what is read is decoded as `a`. A list returns if its items do. `Fills r depth ms a` says that
`a` is built from the members `ms` once they are read back, and there is a rule for each way to add
a field to a record; so what a record is written as returns by rules that follow its fields
(`Fills.returns`).
-/

namespace CallBridge
open Json (Members Legible canonical)

/-- Nested at most so deep, what is written of a value is read and decoded. -/
structure Decoder.Returns {α : Type} (d : Decoder α) (depth : Nat) (j : Json) (a : α) : Prop where
  legible : Legible depth j
  decoded : d (canonical depth j) = .ok a

namespace Decoder
variable {α : Type} {depth : Nat}

/-! ### Values that are no records -/

theorem returns_str {d : Decoder α} {s : String} {a : α} (h : d (.str s) = .ok a) :
    d.Returns depth (.str s) a := by
  refine ⟨Json.legible_str .., ?_⟩
  rw [Json.canonical_str, h]

theorem returns_string (s : String) : string.Returns depth (.str s) s := returns_str rfl

theorem returns_bool (b : Bool) : bool.Returns depth (.bool b) b := by
  cases depth with
  | zero => exact ⟨trivial, rfl⟩
  | succ depth => exact ⟨trivial, rfl⟩

theorem returns_unsigned {name : String} {n : Nat} (h : n < Nat.pow 2 64) :
    (unsigned name 64).Returns depth (.nat n) n := by
  cases depth with
  | zero => exact ⟨Json.isIntegral_of_lt h, unsigned_nat h⟩
  | succ depth => exact ⟨Json.isIntegral_of_lt h, unsigned_nat h⟩

theorem returns_word {n : Nat} (h : n < Nat.pow 2 64) : word.Returns depth (.nat n) n :=
  returns_unsigned h

theorem returns_size {n : Nat} (h : n < Nat.pow 2 64) : size.Returns depth (.nat n) n :=
  returns_unsigned h

theorem returns_float {x : Binary64} (h : Json.ReadsBack x) : float.Returns depth (.float x) x := by
  cases depth with
  | zero => exact ⟨h, rfl⟩
  | succ depth => exact ⟨h, rfl⟩

theorem returns_list {d : Decoder α} {f : α → Json} {as : List α}
    (h : ∀ a ∈ as, d.Returns depth (f a) a) :
    (list d).Returns (depth + 1) (.array (as.map f)) as := by
  constructor
  · intro j hj
    obtain ⟨a, ha, rfl⟩ := List.mem_map.1 hj
    exact (h a ha).legible
  · change ((as.map f).map (canonical depth)).mapM d = .ok as
    induction as with
    | nil => rfl
    | cons a as ih =>
      have hfirst := (h a (List.mem_cons_self ..)).decoded
      have hrest := ih fun b hb => h b (List.mem_cons_of_mem _ hb)
      rw [List.map_cons, List.map_cons, List.mapM_cons, hfirst, hrest]
      rfl

/-- A value that is not written as null returns where null is allowed as well. -/
theorem Returns.nullable {d : Decoder α} {j : Json} {a : α} (h : d.Returns depth j a)
    (hj : j ≠ .null) : d.nullable.Returns depth j (some a) := by
  have hcanonical : canonical depth j ≠ .null := by
    cases j with
    | null => exact absurd rfl hj
    | _ => cases depth <;> exact Json.noConfusion
  refine ⟨h.legible, ?_⟩
  have hdecoded := h.decoded
  generalize canonical depth j = i at hcanonical hdecoded
  cases i with
  | null => exact absurd rfl hcanonical
  | _ => exact congrArg (·.map some) hdecoded

end Decoder

/-! ### Records -/

/-- A record is built from these members once they are read back, so deep at most. -/
structure Record.Fills {α : Type} (r : Record α) (depth : Nat) (ms : Members) (a : α) : Prop where
  checked : r.Checked
  distinct : (r.fields.map (·.name)).Nodup
  keys : List.Sublist (ms.map (·.1)) (r.fields.map (·.name))
  legible : ∀ m ∈ ms, Legible depth m.2
  built : ∀ read : Members, (∀ key ∈ r.fields.map (·.name),
    read.find? key = (ms.find? key).map (canonical depth)) → r.build read = .ok a

namespace Record
variable {α β : Type} {depth : Nat} {ms added : Members} {name : String} {f : α → β} {a : α}

theorem fills_of (depth : Nat) (a : α) : (of a).Fills depth [] a where
  checked := checked_of a
  distinct := .nil
  keys := .slnil
  legible := List.forall_mem_nil _
  built _ _ := rfl

/-- A record with one more field is built from the members of that field as well. -/
theorem Fills.extend {r : Record (α → β)} (h : r.Fills depth ms f)
    (hname : name ∉ r.fields.map (·.name)) {d : Decoder α} {absent : Except DecodeError α}
    (hkeys : List.Sublist (added.map (·.1)) [name]) (hlegible : ∀ m ∈ added, Legible depth m.2)
    (hslot : ∀ read : Members, read.find? name = (added.find? name).map (canonical depth) →
      read.slot name d absent = .ok a) :
    (r.extend name d absent).Fills depth (ms ++ added) (f a) := by
  have hfields : (r.extend name d absent).fields.map (·.name) = r.fields.map (·.name) ++ [name] :=
    List.map_append
  refine ⟨h.checked.extend name d absent, ?_, ?_, ?_, ?_⟩
  · rw [hfields]
    refine List.nodup_append.2 ⟨h.distinct, List.pairwise_singleton .., ?_⟩
    rintro key hkey _ hother rfl
    exact hname (List.mem_singleton.1 hother ▸ hkey)
  · rw [hfields, List.map_append]
    exact h.keys.append hkeys
  · exact fun m hm => (List.mem_append.1 hm).elim (h.legible m) (hlegible m)
  · intro read hread
    rw [hfields] at hread
    refine build_extend_iff.2 ⟨f, a, h.built read fun key hkey => ?_, hslot read ?_, rfl⟩
    · -- the new members have another key
      have hother : added.find? key = none := by
        refine Members.find?_eq_none fun hmem => hname ?_
        rwa [← List.mem_singleton.1 (hkeys.subset hmem)]
      rw [hread key (List.mem_append_left _ hkey), Members.find?_append, hother, Option.or_none]
    · have hother : ms.find? name = none :=
        Members.find?_eq_none fun hmem => hname (h.keys.subset hmem)
      rw [hread name (List.mem_append_right _ (List.mem_singleton_self name)), Members.find?_append,
        hother, Option.none_or]

theorem Fills.required {r : Record (α → β)} (h : r.Fills depth ms f) {j : Json} {d : Decoder α}
    (name : String) (hname : name ∉ r.fields.map (·.name)) (hd : d.Returns depth j a) :
    (r.required name d).Fills depth (ms ++ [(name, j)]) (f a) := by
  refine h.extend hname (List.Sublist.refl _) (List.forall_mem_singleton.2 hd.legible) ?_
  intro read hread
  rw [Members.find?_cons, if_pos rfl, Option.map_some] at hread
  rw [Members.slot, hread]
  exact hd.decoded

theorem Fills.optional {r : Record (Option α → β)} {f : Option α → β} (h : r.Fills depth ms f)
    {g : α → Json} {d : Decoder α} (name : String) (hname : name ∉ r.fields.map (·.name))
    {o : Option α} (hd : ∀ x, o = some x → d.nullable.Returns depth (g x) (some x)) :
    (r.optional name d).Fills depth (ms ++ Json.optional name g o) (f o) := by
  refine h.extend hname (Members.keys_optional_sublist ..)
    (Members.forall_mem_optional.2 fun x hx => (hd x hx).legible) ?_
  intro read hread
  rw [Members.find?_optional, if_pos rfl] at hread
  rw [Members.slot, hread]
  cases o with
  | none => rfl
  | some x => exact (hd x rfl).decoded

/-- A record that is built from the members of an object is decoded from the object. -/
theorem Fills.returns {r : Record α} (h : r.Fills depth ms a) (title : String) :
    Decoder.Returns (r.decode title) (depth + 1) (.object ms) a := by
  refine ⟨h.legible, ?_⟩
  have hdistinct : Members.Distinct (ms.map fun m => (m.1, canonical depth m.2)) := by
    simpa [Members.Distinct, Function.comp_def] using h.keys.nodup h.distinct
  refine decode_of_build h.checked (Members.sorted_sort _).distinct (h.built _ fun key _ => ?_)
  rw [Members.find?_sort hdistinct, Members.find?_map]

end Record
end CallBridge
