import CallBridge.Proofs.Json.Doubles

/-!
# Values and how deep they are nested

A value as a program holds it (`IsValue`) is read back from its text just as it is, unless it is
nested deeper than the reader goes (`IsValue.ofChars_compactChars`); then it is refused for that
(`IsValue.ofChars_of_deep`). So where its text can be read is a matter of its `nesting` alone. And no
text holds a control character, whatever its strings hold (`le_toNat_of_mem_compactChars`).
-/

namespace CallBridge.Json

/-! ### Nesting -/

mutual

/-- How deep the arrays and objects of a value are nested. -/
def nesting : Json → Nat
  | .array items => nestingItems items + 1
  | .object members => nestingMembers members + 1
  | _ => 0

def nestingItems : List Json → Nat
  | [] => 0
  | j :: rest => max (nesting j) (nestingItems rest)

def nestingMembers : Members → Nat
  | [] => 0
  | m :: rest => max (nesting m.2) (nestingMembers rest)

end

theorem lt_nestingItems_iff {depth : Nat} {items : List Json} :
    depth < nestingItems items ↔ ∃ j ∈ items, depth < nesting j := by
  induction items with
  | nil => simp [nestingItems]
  | cons j rest ih => simp [nestingItems, ih]

theorem lt_nestingMembers_iff {depth : Nat} {members : Members} :
    depth < nestingMembers members ↔ ∃ m ∈ members, depth < nesting m.2 := by
  induction members with
  | nil => simp [nestingMembers]
  | cons m rest ih => simp [nestingMembers, ih]

theorem nesting_array_le_iff {depth : Nat} {items : List Json} :
    nesting (.array items) ≤ depth + 1 ↔ ∀ j ∈ items, nesting j ≤ depth := by
  rw [nesting, Nat.succ_le_succ_iff, ← not_lt, lt_nestingItems_iff]
  simp

theorem nesting_object_le_iff {depth : Nat} {members : Members} :
    nesting (.object members) ≤ depth + 1 ↔ ∀ m ∈ members, nesting m.2 ≤ depth := by
  rw [nesting, Nat.succ_le_succ_iff, ← not_lt, lt_nestingMembers_iff]
  simp

/-! ### Values -/

/-- A value as a program holds it: integers within their bounds, doubles of which `P` is true, and in
each object one member for each key, in order. -/
inductive IsValue (P : Binary64 → Prop) : Json → Prop
  | null : IsValue P .null
  | bool (b : Bool) : IsValue P (.bool b)
  | int {n : Int} (h : isIntegral n) : IsValue P (.int n)
  | float {x : Binary64} (h : P x) : IsValue P (.float x)
  | str (s : String) : IsValue P (.str s)
  | array {items : List Json} (h : ∀ j ∈ items, IsValue P j) : IsValue P (.array items)
  | object {members : Members} (hsorted : members.Sorted) (h : ∀ m ∈ members, IsValue P m.2) :
      IsValue P (.object members)

/-! ### Where a reader gives up -/

/-- A reader gives a text up as nested too deep, whatever stands behind it. -/
def Refuses (item : Reader) (s : List Char) : Prop :=
  ∀ rest, ∃ left, item (s ++ rest) = .error ⟨.tooDeep, left⟩

/-- What stands behind an item or a member: the text of the others after a comma, if there are
others. -/
def behind {α : Type} : List α → List Char → List Char
  | [], _ => []
  | _ :: _, s => ',' :: s

theorem skipBlanks_cons {c : Char} {s : List Char} (hc : isBlank c = false) :
    skipBlanks (c :: s) = c :: s :=
  skipBlanks_gap blank_nil hc

theorem closes_comma (s : List Char) : Closes (',' :: s) := .cons (.inr (.inl rfl))

theorem Reads.front {item : Reader} {s rest : List Char} {j : Json} (h : Reads item s j)
    (hrest : Closes rest) : item (s ++ rest) = .ok (j, rest) :=
  h [] rest blank_nil hrest

section
variable {item : Reader} {room : Nat} {s s' rest : List Char} {f : Fault}

theorem items_fault (hitem : item s = .error f) : items item (room + 1) s = .error f := by
  rw [items, hitem]
  rfl

theorem members_fault (hmember : member item s = .error f) :
    members item (room + 1) s = .error f := by
  rw [members, hmember]
  rfl

theorem member_fault {key : String} (hkey : stringTail [] s = .ok (key, ':' :: s'))
    (hitem : item s' = .error f) : member item s = .error f := by
  rw [member, hkey, ok_bind]
  change (item s' >>= fun x => _) = _
  rw [hitem]
  rfl

theorem compactItems_cons (j : Json) (js : List Json) :
    compactItems (j :: js) = compactChars j ++ behind js (compactItems js) := by
  cases js with
  | nil => exact (List.append_nil _).symm
  | cons k js => rfl

theorem length_le_compactItems (js : List Json) : js.length ≤ (compactItems js).length + 1 := by
  induction js with
  | nil => exact Nat.zero_le _
  | cons j js ih =>
    rw [compactItems_cons, List.length_append]
    cases js with
    | nil => simp
    | cons k js =>
      simp only [behind, List.length_cons] at ih ⊢
      omega

theorem compactMembers_cons (m : String × Json) (ms : Members) : compactMembers (m :: ms) =
    quoted m.1 ++ ':' :: (compactChars m.2 ++ behind ms (compactMembers ms)) := by
  cases ms with
  | nil => simp [compactMembers, behind]
  | cons n ms => rfl

theorem length_le_compactMembers (ms : Members) : ms.length ≤ (compactMembers ms).length := by
  induction ms with
  | nil => exact Nat.le_refl _
  | cons m ms ih =>
    rw [compactMembers_cons]
    cases ms with
    | nil =>
      simp only [List.length_append, List.length_cons, List.length_nil]
      omega
    | cons n ms =>
      simp only [behind, List.length_append, List.length_cons] at ih ⊢
      omega

/-- Items of which one is refused are refused, those before it being read. -/
theorem items_refused {js : List Json} (hstarts : ∀ j ∈ js, Starts (compactChars j))
    (hread : ∀ j ∈ js, ¬ Refuses item (compactChars j) → Reads item (compactChars j) j)
    (hdeep : ∃ j ∈ js, Refuses item (compactChars j)) (hroom : js.length ≤ room)
    (rest : List Char) :
    ∃ left, items item room (compactItems js ++ rest) = .error ⟨.tooDeep, left⟩ := by
  induction js generalizing room with
  | nil => exact absurd hdeep (by simp)
  | cons j js ih =>
    obtain ⟨room, rfl⟩ := Nat.exists_eq_add_of_le' (Nat.le_trans (Nat.le_add_left ..) hroom)
    rw [compactItems_cons, List.append_assoc]
    by_cases hj : Refuses item (compactChars j)
    · obtain ⟨left, hleft⟩ := hj (behind js (compactItems js) ++ rest)
      exact ⟨left, items_fault hleft⟩
    -- This item is read, so the one refused is among those behind the comma.
    have hmore := (List.exists_mem_cons_iff ..).1 hdeep |>.resolve_left hj
    obtain ⟨left, hleft⟩ := ih (fun i hi => hstarts i (List.mem_cons_of_mem _ hi))
      (fun i hi => hread i (List.mem_cons_of_mem _ hi)) hmore (Nat.le_of_succ_le_succ hroom)
    cases js with
    | nil => exact absurd hmore (by simp)
    | cons k js =>
      obtain ⟨c, s, hs, hblank, hc⟩ := hstarts k (by simp)
      have htext : compactItems (k :: js) ++ rest =
          c :: (s ++ (behind js (compactItems js) ++ rest)) := by
        rw [compactItems_cons, hs, List.append_assoc, List.cons_append]
      have hitem := (hread j (List.mem_cons_self ..) hj).front
        (closes_comma (compactItems (k :: js) ++ rest))
      refine ⟨left, ?_⟩
      rw [htext] at hleft hitem
      rw [behind, List.cons_append, htext, items_next hitem (skipBlanks_cons (by decide))
        (skipBlanks_cons hblank) hc, hleft]
      rfl

/-- Members of which one is refused are refused, those before it being read. -/
theorem members_refused {ms : Members}
    (hread : ∀ m ∈ ms, ¬ Refuses item (compactChars m.2) → Reads item (compactChars m.2) m.2)
    (hdeep : ∃ m ∈ ms, Refuses item (compactChars m.2)) (hroom : ms.length ≤ room)
    (rest : List Char) : ∃ t left, compactMembers ms ++ rest = '"' :: t ∧
      members item room t = .error ⟨.tooDeep, left⟩ := by
  induction ms generalizing room with
  | nil => exact absurd hdeep (by simp)
  | cons m ms ih =>
    obtain ⟨room, rfl⟩ := Nat.exists_eq_add_of_le' (Nat.le_trans (Nat.le_add_left ..) hroom)
    let more := behind ms (compactMembers ms) ++ rest
    obtain ⟨t, ht, hkey⟩ : ∃ t, quoted m.1 ++ ':' :: (compactChars m.2 ++ more) = '"' :: t ∧
        stringTail [] t = .ok (m.1, ':' :: (compactChars m.2 ++ more)) :=
      ⟨_, rfl, by simpa using stringTail_quoted m.1 (':' :: (compactChars m.2 ++ more))⟩
    have htext : compactMembers (m :: ms) ++ rest = '"' :: t := by
      rw [compactMembers_cons, List.append_assoc, List.cons_append, List.append_assoc, ← ht]
    by_cases hm : Refuses item (compactChars m.2)
    · obtain ⟨left, hleft⟩ := hm more
      exact ⟨t, left, htext, members_fault (member_fault hkey hleft)⟩
    have hmore := (List.exists_mem_cons_iff ..).1 hdeep |>.resolve_left hm
    obtain ⟨t', left, htext', hleft⟩ := ih (fun n hn => hread n (List.mem_cons_of_mem _ hn)) hmore
      (Nat.le_of_succ_le_succ hroom)
    cases ms with
    | nil => exact absurd hmore (by simp)
    | cons n ms =>
      have hrest : more = ',' :: '"' :: t' := congrArg (',' :: ·) htext'
      have hmember := member_read hkey rfl
        ((hread m (List.mem_cons_self ..) hm).front (hrest ▸ closes_comma ('"' :: t')))
      have hcomma : skipBlanks more = ',' :: '"' :: t' := by
        rw [hrest]
        exact skipBlanks_cons (by decide)
      refine ⟨t, left, htext, ?_⟩
      rw [members_next hmember hcomma (skipBlanks_cons (by decide)), hleft]
      rfl

theorem arrayTail_refused {js : List Json} (hstarts : ∀ j ∈ js, Starts (compactChars j))
    (hread : ∀ j ∈ js, ¬ Refuses item (compactChars j) → Reads item (compactChars j) j)
    (hdeep : ∃ j ∈ js, Refuses item (compactChars j)) (rest : List Char) :
    ∃ left, arrayTail item (compactItems js ++ ']' :: rest) = .error ⟨.tooDeep, left⟩ := by
  obtain ⟨c, body, htext, hblank, hc⟩ : Starts (compactItems js ++ ']' :: rest) := by
    cases js with
    | nil => exact absurd hdeep (by simp)
    | cons j js =>
      obtain ⟨c, s, hs, hblank, hc⟩ := hstarts j (List.mem_cons_self ..)
      exact ⟨c, _, by rw [compactItems_cons, hs]; rfl, hblank, hc⟩
  have hroom : js.length ≤ body.length + 1 := by
    have hlength := congrArg List.length htext
    have hitems := length_le_compactItems js
    simp only [List.length_append, List.length_cons] at hlength
    omega
  obtain ⟨left, hleft⟩ := items_refused hstarts hread hdeep hroom (']' :: rest)
  rw [htext] at hleft
  rw [htext, arrayTail_eq (skipBlanks_cons hblank) hc, hleft]
  exact ⟨left, rfl⟩

theorem objectTail_refused {ms : Members}
    (hread : ∀ m ∈ ms, ¬ Refuses item (compactChars m.2) → Reads item (compactChars m.2) m.2)
    (hdeep : ∃ m ∈ ms, Refuses item (compactChars m.2)) (rest : List Char) :
    ∃ left, objectTail item (compactMembers ms ++ '}' :: rest) = .error ⟨.tooDeep, left⟩ := by
  have hroom : ms.length ≤ (compactMembers ms).length + rest.length :=
    Nat.le_add_right_of_le (length_le_compactMembers ms)
  obtain ⟨t, left, htext, hleft⟩ := members_refused hread hdeep hroom ('}' :: rest)
  have hlength : (compactMembers ms).length + (rest.length + 1) = t.length + 1 := by
    simpa using congrArg List.length htext
  have hall : (compactMembers ms).length + rest.length = t.length := by omega
  rw [hall] at hleft
  rw [htext, objectTail_eq (skipBlanks_cons (by decide)), hleft]
  exact ⟨left, rfl⟩

end

/-! ### What becomes of a value -/

namespace IsValue
variable {P : Binary64 → Prop} {depth : Nat} {j : Json}

theorem canonical_eq (h : IsValue P j) : canonical depth j = j := by
  induction h generalizing depth with
  | array h ih =>
    cases depth with
    | zero => rfl
    | succ depth => rw [canonical, (List.map_congr_left fun j hj => ih j hj).trans (List.map_id _)]
  | @object members hsorted h ih =>
    cases depth with
    | zero => rfl
    | succ depth =>
      have hkept : ∀ m ∈ members, (m.1, canonical depth m.2) = id m := fun m hm => by
        rw [ih m hm]
        rfl
      rw [canonical, (List.map_congr_left hkept).trans (List.map_id _),
        Members.sort_of_sorted hsorted]
  | _ => cases depth <;> rfl

theorem legible (h : IsValue ReadsBack j) (hdepth : nesting j ≤ depth) : Legible depth j := by
  induction h generalizing depth with
  | array h ih =>
    cases depth with
    | zero => exact absurd hdepth (Nat.not_succ_le_zero _)
    | succ depth => exact fun j hj => ih j hj (nesting_array_le_iff.1 hdepth j hj)
  | object hsorted h ih =>
    cases depth with
    | zero => exact absurd hdepth (Nat.not_succ_le_zero _)
    | succ depth => exact fun m hm => ih m hm (nesting_object_le_iff.1 hdepth m hm)
  | null => cases depth <;> trivial
  | bool b => cases depth <;> trivial
  | int h => cases depth <;> exact h
  | float h => cases depth <;> exact h
  | str s => exact legible_str depth s

theorem spells (h : IsValue ReadsBack j) (hdepth : nesting j ≤ depth) :
    Spells depth (compactChars j) j := by
  have hspells := spells_compactChars (h.legible hdepth)
  rwa [h.canonical_eq] at hspells

theorem starts (h : IsValue ReadsBack j) : Starts (compactChars j) :=
  (h.spells (Nat.le_refl _)).starts

/-- Where a reader does not refuse a value for its nesting, it reads it. -/
theorem reads (h : IsValue ReadsBack j)
    (hrefused : depth < nesting j → Refuses (value depth) (compactChars j))
    (hnot : ¬ Refuses (value depth) (compactChars j)) : Reads (value depth) (compactChars j) j :=
  (h.spells (not_lt.1 fun hdepth => hnot (hrefused hdepth))).reads

/-- A value that is nested deeper than a reader goes is refused. -/
theorem refuses (h : IsValue ReadsBack j) (hdepth : depth < nesting j) :
    Refuses (value depth) (compactChars j) := by
  induction depth generalizing j with
  | zero =>
    intro rest
    cases h with
    | array | object =>
      rw [compactChars, List.cons_append, value, skipBlanks_cons (by decide)]
      exact ⟨_, rfl⟩
    | _ => exact absurd hdepth (Nat.lt_irrefl 0)
  | succ depth ih =>
    intro rest
    cases h with
    | @array js h =>
      obtain ⟨i, hi, hdeep⟩ := lt_nestingItems_iff.1 (Nat.lt_of_succ_lt_succ hdepth)
      obtain ⟨left, hleft⟩ := arrayTail_refused (fun j hj => (h j hj).starts)
        (fun j hj => (h j hj).reads (ih (h j hj))) ⟨i, hi, ih (h i hi) hdeep⟩ rest
      refine ⟨left, ?_⟩
      rwa [compactChars, List.cons_append, value, skipBlanks_cons (by decide), List.append_assoc]
    | @object ms hsorted h =>
      obtain ⟨m, hm, hdeep⟩ := lt_nestingMembers_iff.1 (Nat.lt_of_succ_lt_succ hdepth)
      obtain ⟨left, hleft⟩ := objectTail_refused (fun m hm => (h m hm).reads (ih (h m hm)))
        ⟨m, hm, ih (h m hm) hdeep⟩ rest
      refine ⟨left, ?_⟩
      rwa [compactChars, List.cons_append, value, skipBlanks_cons (by decide), List.append_assoc]
    | _ => exact absurd hdepth (Nat.not_lt_zero _)

/-- The text of a value is read as the value by every reader that goes deep enough. -/
theorem ofChars_compactChars (h : IsValue ReadsBack j) (hdepth : nesting j ≤ depth) :
    ofChars depth (compactChars j) = .ok j := by
  simpa using ofChars_of_spells blank_nil (h.spells hdepth) blank_nil

/-- And refused by every other. -/
theorem ofChars_of_deep (h : IsValue ReadsBack j) (hdepth : depth < nesting j) :
    ∃ e, ofChars depth (compactChars j) = .error e ∧ e.cause = .tooDeep := by
  obtain ⟨left, hleft⟩ := h.refuses hdepth []
  rw [List.append_nil] at hleft
  refine ⟨Fault.locate ⟨.tooDeep, left⟩ (compactChars j), ?_, rfl⟩
  rw [ofChars, document, hleft]
  rfl

end IsValue

/-! ### Characters -/

/-- A text without control characters. -/
def Printed (s : List Char) : Prop := ∀ c ∈ s, 32 ≤ c.toNat

@[simp] theorem printed_nil : Printed [] := fun _ h => by cases h

@[simp] theorem printed_cons {c : Char} {s : List Char} :
    Printed (c :: s) ↔ 32 ≤ c.toNat ∧ Printed s :=
  List.forall_mem_cons

@[simp] theorem printed_append {s t : List Char} : Printed (s ++ t) ↔ Printed s ∧ Printed t :=
  List.forall_mem_append

theorem printed_escape (c : Char) : Printed (escape c) := by
  have hdigits : ∀ n < 16, 32 ≤ (Nat.digitChar n).toNat := by decide
  have hhex : ∀ n, 32 ≤ (hexDigit n).toNat := fun n => hdigits _ (Nat.mod_lt _ (by decide))
  unfold escape
  split_ifs with hquote hslash hback hfeed hline hreturn htab hcontrol
  case neg => simpa using not_lt.1 hcontrol
  all_goals simp [hhex]

theorem printed_quoted (s : String) : Printed (quoted s) := by
  have hbody : Printed (s.toList.flatMap escape) := by
    intro c hc
    obtain ⟨d, -, hd⟩ := List.mem_flatMap.1 hc
    exact printed_escape d c hd
  simp [quoted, hbody]

theorem le_toNat_of_isNumeral {c : Char} (h : Decimal.isNumeral c) : 32 ≤ c.toNat := by
  simp only [Decimal.isNumeral, Bool.or_eq_true, decide_eq_true_eq] at h
  rcases h with (((hdigit | rfl) | rfl) | rfl) | rfl
  · exact Nat.le_trans (by decide) (toNat_of_isDigit hdigit).1
  all_goals decide

theorem printed_scalarChars (j : Json) : Printed (scalarChars j) := by
  cases j with
  | bool b => cases b <;> simp [scalarChars]
  | int n =>
    have hdigits : ∀ n, Printed (Decimal.digits n) := fun n c hc =>
      le_toNat_of_isNumeral (Decimal.isNumeral_of_mem_digits hc)
    simp only [scalarChars, Decimal.signedDigits]
    split_ifs <;> simp [hdigits]
  | float x =>
    simp only [scalarChars, floatChars]
    split
    · exact fun c hc => le_toNat_of_isNumeral (Decimal.isNumeral_of_mem_render hc)
    · simp
  | str s => exact printed_quoted s
  | null | array | object => simp [scalarChars]

mutual

theorem printed_compactChars : ∀ j, Printed (compactChars j)
  | .array items => by simp [compactChars, printed_compactItems items]
  | .object members => by simp [compactChars, printed_compactMembers members]
  | .null => printed_scalarChars .null
  | .bool b => printed_scalarChars (.bool b)
  | .int n => printed_scalarChars (.int n)
  | .float x => printed_scalarChars (.float x)
  | .str s => printed_scalarChars (.str s)

theorem printed_compactItems : ∀ items, Printed (compactItems items)
  | [] => printed_nil
  | [j] => printed_compactChars j
  | j :: k :: rest => by
    simp [compactItems, printed_compactChars j, printed_compactItems (k :: rest)]

theorem printed_compactMembers : ∀ members, Printed (compactMembers members)
  | [] => printed_nil
  | [(k, v)] => by simp [compactMembers, printed_quoted k, printed_compactChars v]
  | (k, v) :: m :: rest => by
    simp [compactMembers, printed_quoted k, printed_compactChars v,
      printed_compactMembers (m :: rest)]

end

end CallBridge.Json
