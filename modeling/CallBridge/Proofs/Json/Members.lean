import CallBridge.Json
import Mathlib.Data.String.Basic
import Mathlib.Tactic.SplitIfs

/-!
# Members by key

Sorting members by key keeps what each key finds if there is one member for each key
(`find?_sort`), and changes nothing where the members are sorted already (`sort_of_sorted`).
-/

namespace CallBridge.Json.Members

/-- One member for each key. -/
def Distinct (ms : Members) : Prop := (ms.map (·.1)).Nodup

/-- Members in the order of their keys, one for each key. -/
def Sorted (ms : Members) : Prop := (ms.map (·.1)).Pairwise (· < ·)

theorem Sorted.distinct {ms : Members} (h : ms.Sorted) : ms.Distinct :=
  h.imp ne_of_lt

/-! ### Looking up -/

@[simp] theorem find?_nil (key : String) : find? [] key = none := rfl

@[simp] theorem find?_cons (k : String) (v : Json) (ms : Members) (key : String) :
    find? ((k, v) :: ms) key = if k = key then some v else find? ms key := by
  by_cases h : k = key <;> simp [find?, h]

@[simp] theorem find?_append (ms ms' : Members) (key : String) :
    find? (ms ++ ms') key = (find? ms key).or (find? ms' key) := by
  simp only [find?, List.find?_append]
  cases List.find? (·.1 = key) ms <;> rfl

@[simp] theorem find?_optional {α : Type} (k : String) (f : α → Json) (a : Option α)
    (key : String) : find? (optional k f a) key = if k = key then a.map f else none := by
  cases a <;> simp [optional]

theorem find?_map (f : Json → Json) (ms : Members) (key : String) :
    find? (ms.map fun m => (m.1, f m.2)) key = (find? ms key).map f := by
  induction ms with
  | nil => rfl
  | cons m ms ih =>
    rw [List.map_cons, find?_cons, find?_cons, ih]
    split_ifs <;> rfl

theorem find?_filter (p : String → Bool) (ms : Members) (key : String) :
    find? (ms.filter (p ·.1)) key = if p key then find? ms key else none := by
  induction ms with
  | nil => simp
  | cons m ms ih =>
    obtain ⟨k, v⟩ := m
    by_cases hkey : k = key
    · subst hkey
      by_cases hp : p k <;> simp [hp, ih]
    · by_cases hp : p k <;> simp [hp, ih, hkey]

theorem contains_eq (ms : Members) (key : String) : ms.contains key = (find? ms key).isSome := by
  induction ms with
  | nil => rfl
  | cons m ms ih =>
    rw [find?_cons, contains, List.any_cons, ← contains, ih]
    by_cases h : m.1 = key <;> simp [h]

theorem find?_eq_none {ms : Members} {key : String} (h : key ∉ ms.map (·.1)) :
    find? ms key = none := by
  induction ms with
  | nil => rfl
  | cons m ms ih =>
    rw [List.map_cons, List.mem_cons, not_or] at h
    rw [find?_cons, if_neg (Ne.symm h.1), ih h.2]

theorem find?_of_mem {ms : Members} {m : String × Json} (hms : ms.Distinct) (hm : m ∈ ms) :
    find? ms m.1 = some m.2 := by
  induction ms with
  | nil => cases hm
  | cons n ms ih =>
    obtain ⟨hn, hms⟩ := List.nodup_cons.1 hms
    rw [find?_cons]
    rcases List.mem_cons.1 hm with rfl | hm
    · exact if_pos rfl
    · have hne : n.1 ≠ m.1 := fun h => hn (List.mem_map.2 ⟨m, hm, h.symm⟩)
      rw [if_neg hne, ih hms hm]

theorem forall_mem_optional {α : Type} {key : String} {f : α → Json} {a : Option α}
    {P : String × Json → Prop} :
    (∀ m ∈ optional key f a, P m) ↔ ∀ x, a = some x → P (key, f x) := by
  cases a <;> simp [optional]

theorem keys_optional_sublist {α : Type} (key : String) (f : α → Json) (a : Option α) :
    List.Sublist ((optional key f a).map (·.1)) [key] := by
  cases a with
  | none => exact List.nil_sublist _
  | some a => exact List.Sublist.refl _

/-! ### Sorting -/

theorem find?_insert (key : String) (value : Json) (ms : Members) (k : String) :
    find? (insert key value ms) k = if key = k then some value else find? ms k := by
  induction ms with
  | nil => rw [insert, find?_cons]
  | cons m ms ih =>
    obtain ⟨key', value'⟩ := m
    rw [insert]
    by_cases hlt : key < key'
    · rw [if_pos hlt, find?_cons]
    by_cases heq : key = key'
    · subst heq
      rw [if_neg hlt, if_pos rfl, find?_cons, find?_cons]
      by_cases hk : key = k <;> simp [hk]
    · rw [if_neg hlt, if_neg heq, find?_cons, find?_cons, ih]
      by_cases hk : key' = k
      · rw [if_pos hk, if_neg fun h => heq (h.trans hk.symm), if_pos hk]
      · rw [if_neg hk, if_neg hk]

theorem find?_foldl_insert {ms : Members} (hms : ms.Distinct) (sorted : Members) (key : String) :
    find? (ms.foldl (fun sorted (key, value) => insert key value sorted) sorted) key =
      (find? ms key).or (find? sorted key) := by
  induction ms generalizing sorted with
  | nil => rfl
  | cons m ms ih =>
    obtain ⟨hm, hms⟩ := List.nodup_cons.1 hms
    rw [List.foldl_cons]
    dsimp only
    rw [ih hms, find?_insert, find?_cons]
    split_ifs with hkey
    · rw [find?_eq_none (hkey ▸ hm)]
      rfl
    · rfl

/-- Sorting keeps what a key finds. -/
theorem find?_sort {ms : Members} (hms : ms.Distinct) (key : String) :
    find? ms.sort key = find? ms key := by
  rw [sort, find?_foldl_insert hms, find?_nil, Option.or_none]

theorem mem_insert {key : String} {value : Json} {ms : Members} {m : String × Json}
    (h : m ∈ insert key value ms) : m = (key, value) ∨ m ∈ ms := by
  induction ms with
  | nil => exact .inl (List.mem_singleton.1 h)
  | cons n ms ih =>
    rw [insert] at h
    split_ifs at h with hlt heq
    · exact List.mem_cons.1 h
    · rcases List.mem_cons.1 h with h | h
      · exact .inl h
      · exact .inr (List.mem_cons_of_mem _ h)
    · rcases List.mem_cons.1 h with rfl | h
      · exact .inr (List.mem_cons_self ..)
      · exact (ih h).imp_right (List.mem_cons_of_mem _)

theorem mem_sort {ms : Members} {m : String × Json} (h : m ∈ ms.sort) : m ∈ ms := by
  refine List.foldlRecOn ms _ (motive := fun sorted => m ∈ sorted → m ∈ ms) ?_ ?_ h
  · exact fun h => absurd h List.not_mem_nil
  · intro sorted ih n hn h
    rcases mem_insert h with rfl | h
    · exact hn
    · exact ih h

theorem Sorted.insert {ms : Members} (h : ms.Sorted) (key : String) (value : Json) :
    (ms.insert key value).Sorted := by
  induction ms with
  | nil => exact List.pairwise_singleton ..
  | cons m ms ih =>
    obtain ⟨hm, hms⟩ := List.pairwise_cons.1 h
    rw [Members.insert]
    split_ifs with hlt heq
    · refine List.pairwise_cons.2 ⟨fun k hk => ?_, h⟩
      rcases List.mem_cons.1 hk with rfl | hk
      · exact hlt
      · exact hlt.trans (hm k hk)
    · subst heq
      exact h
    · have hlt' : m.1 < key := lt_of_le_of_ne (not_lt.1 hlt) (Ne.symm heq)
      refine List.pairwise_cons.2 ⟨fun k hk => ?_, ih hms⟩
      obtain ⟨n, hn, rfl⟩ := List.mem_map.1 hk
      rcases mem_insert hn with rfl | hn
      · exact hlt'
      · exact hm _ (List.mem_map_of_mem hn)

theorem sorted_sort (ms : Members) : ms.sort.Sorted :=
  List.foldlRecOn ms _ .nil fun _ h m _ => h.insert m.1 m.2

theorem insert_of_last {key : String} {value : Json} {ms : Members}
    (h : ∀ m ∈ ms, m.1 < key) : ms.insert key value = ms ++ [(key, value)] := by
  induction ms with
  | nil => rfl
  | cons m ms ih =>
    have hm := h m (List.mem_cons_self ..)
    rw [Members.insert, if_neg (not_lt_of_gt hm), if_neg (ne_of_gt hm),
      ih fun n hn => h n (List.mem_cons_of_mem _ hn)]
    rfl

theorem sort_of_sorted {ms : Members} (h : ms.Sorted) : ms.sort = ms := by
  have hfold : ∀ (ms sorted : Members), (sorted ++ ms).Sorted →
      ms.foldl (fun sorted (key, value) => Members.insert key value sorted) sorted =
        sorted ++ ms := by
    intro ms
    induction ms with
    | nil => exact fun sorted _ => (List.append_nil sorted).symm
    | cons m ms ih =>
      intro sorted h
      have hlast : ∀ n ∈ sorted, n.1 < m.1 := by
        rw [Sorted, List.map_append, List.pairwise_append] at h
        exact fun n hn => h.2.2 n.1 (List.mem_map_of_mem hn) m.1 (List.mem_cons_self ..)
      rw [List.foldl_cons]
      dsimp only
      rw [insert_of_last hlast, ih _ (by simpa using h), List.append_assoc]
      rfl
  exact hfold ms [] h

end CallBridge.Json.Members
