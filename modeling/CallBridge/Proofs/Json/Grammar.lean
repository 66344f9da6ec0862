import CallBridge.Proofs.Json.Scalars

/-!
# What is written is read

`Spells d s j`: the text `s` stands for the value `j`, nested at most `d` deep, with blanks wherever
the grammar has room for them. Such a text is read as its value (`ofChars_of_spells`), so a printer
has to be compared with the grammar only: `read_compact` is this for the printer without blanks.
Members come out sorted by key, and of several under one key the last; `canonical` is the value that
is read back.
-/

namespace CallBridge.Json

/-! ### Blanks -/

def Blank (s : List Char) : Prop := ∀ c ∈ s, isBlank c

theorem blank_nil : Blank [] := fun _ h => by cases h

theorem skipBlanks_gap {gap s : List Char} {c : Char} (hgap : Blank gap)
    (hc : isBlank c = false) : skipBlanks (gap ++ c :: s) = c :: s := by
  rw [skipBlanks, List.dropWhile_append_of_pos hgap, List.dropWhile_cons_of_neg (by simp [hc])]

theorem skipBlanks_blank {gap : List Char} (hgap : Blank gap) : skipBlanks gap = [] :=
  List.dropWhile_eq_nil_iff.2 hgap

theorem length_skipBlanks_le (s : List Char) : (skipBlanks s).length ≤ s.length :=
  (List.dropWhile_suffix _).length_le

theorem Closes.gap {gap rest : List Char} {c : Char} (hgap : Blank gap)
    (h : Closes (c :: rest)) : Closes (gap ++ c :: rest) := by
  cases gap with
  | nil => exact h
  | cons b gap => exact .cons (.inl (hgap b (List.mem_cons_self ..)))

theorem closes_blank {gap : List Char} (hgap : Blank gap) : Closes gap := by
  rintro c hc
  cases gap with
  | nil => cases hc
  | cons b gap =>
    obtain rfl := Option.some.inj hc
    exact .inl (hgap _ (List.mem_cons_self ..))

/-! ### The grammar -/

section
variable (P : List Char → Json → Prop)

/-- Items of an array, `P` spelling each. -/
inductive SpellsItems : List Char → List Json → Prop
  | last {before s after : List Char} {j : Json} (hbefore : Blank before) (h : P s j)
      (hafter : Blank after) : SpellsItems (before ++ (s ++ after)) [j]
  | more {before s after t : List Char} {j : Json} {js : List Json} (hbefore : Blank before)
      (h : P s j) (hafter : Blank after) (ht : SpellsItems t js) :
      SpellsItems (before ++ (s ++ (after ++ ',' :: t))) (j :: js)

/-- Members of an object, `P` spelling the value of each. -/
inductive SpellsMembers : List Char → Members → Prop
  | last {before gap s after : List Char} {j : Json} (key : String) (hbefore : Blank before)
      (hgap : Blank gap) (h : P s j) (hafter : Blank after) :
      SpellsMembers (before ++ (quoted key ++ ':' :: (gap ++ (s ++ after)))) [(key, j)]
  | more {before gap s after t : List Char} {j : Json} {ms : Members} (key : String)
      (hbefore : Blank before) (hgap : Blank gap) (h : P s j) (hafter : Blank after)
      (ht : SpellsMembers t ms) :
      SpellsMembers (before ++ (quoted key ++ ':' :: (gap ++ (s ++ (after ++ ',' :: t)))))
        ((key, j) :: ms)

/-- An array or an object, `P` spelling what it holds. -/
inductive SpellsNested : List Char → Json → Prop
  | emptyArray {gap : List Char} (hgap : Blank gap) : SpellsNested ('[' :: (gap ++ [']'])) (.array [])
  | array {t : List Char} {js : List Json} (ht : SpellsItems P t js) :
      SpellsNested ('[' :: (t ++ [']'])) (.array js)
  | emptyObject {gap : List Char} (hgap : Blank gap) :
      SpellsNested ('{' :: (gap ++ ['}'])) (.object [])
  | object {t : List Char} {ms : Members} (ht : SpellsMembers P t ms) :
      SpellsNested ('{' :: (t ++ ['}'])) (.object ms.sort)

end

/-- A text that stands for a value nested at most so deep. -/
def Spells : Nat → List Char → Json → Prop
  | 0 => SpellsScalar
  | depth + 1 => fun s j => SpellsScalar s j ∨ SpellsNested (Spells depth) s j

/-! ### Where a value begins -/

/-- A text begins as a value does. -/
def Starts (s : List Char) : Prop := ∃ c t, s = c :: t ∧ isBlank c = false ∧ c ≠ ']'

theorem SpellsScalar.head {s : List Char} {j : Json} (h : SpellsScalar s j) :
    ∃ c t, s = c :: t ∧ isBlank c = false ∧ c ≠ ']' ∧ c ≠ '[' ∧ c ≠ '{' := by
  have hread := h [] closes_nil
  rw [List.append_nil] at hread
  cases s with
  | nil => cases hread
  | cons c t =>
    refine ⟨c, t, rfl, ?_, ?_, ?_, ?_⟩
    · cases hc : isBlank c with
      | false => rfl
      | true =>
        simp only [isBlank, Bool.or_eq_true, decide_eq_true_eq] at hc
        rcases hc with ((rfl | rfl) | rfl) | rfl <;> cases hread
    all_goals
      rintro rfl
      cases hread

theorem Spells.starts {depth : Nat} {s : List Char} {j : Json} (h : Spells depth s j) :
    Starts s := by
  have hscalar : SpellsScalar s j → Starts s := fun h =>
    let ⟨c, t, hs, hblank, hclose, _⟩ := h.head
    ⟨c, t, hs, hblank, hclose⟩
  cases depth with
  | zero => exact hscalar h
  | succ depth =>
    rcases h with h | h
    · exact hscalar h
    · cases h with
      | emptyArray | array => exact ⟨'[', _, rfl, by decide, by decide⟩
      | emptyObject | object => exact ⟨'{', _, rfl, by decide, by decide⟩

/-! ### Reading -/

/-- A reader takes a text for a value, with blanks before it and whatever may stand behind it. -/
def Reads (item : Reader) (s : List Char) (j : Json) : Prop :=
  ∀ gap rest, Blank gap → Closes rest → item (gap ++ (s ++ rest)) = .ok (j, rest)

theorem value_of_scalar {s t : List Char} {c : Char} (hs : skipBlanks s = c :: t) (hlist : c ≠ '[')
    (hobject : c ≠ '{') (depth : Nat) : value depth s = scalar (c :: t) := by
  cases depth with
  | zero =>
    rw [value, hs]
    split
    · next heq => exact absurd (List.cons.inj heq).1 hlist
    · next heq => exact absurd (List.cons.inj heq).1 hobject
    · rfl
  | succ depth =>
    rw [value, hs]
    split
    · next heq => exact absurd (List.cons.inj heq).1 hlist
    · next heq => exact absurd (List.cons.inj heq).1 hobject
    · rfl

theorem SpellsScalar.reads {s : List Char} {j : Json} (h : SpellsScalar s j) (depth : Nat) :
    Reads (value depth) s j := by
  intro gap rest hgap hrest
  obtain ⟨c, t, rfl, hblank, -, hlist, hobject⟩ := h.head
  rw [List.cons_append, value_of_scalar (skipBlanks_gap hgap hblank) hlist hobject]
  exact h rest hrest

section
variable {item : Reader} {room : Nat} {s s' s'' t rest : List Char} {c : Char}

theorem ok_bind {α β : Type} (a : α) (f : α → Reading β) : (Except.ok a >>= f) = f a := rfl

theorem items_last {j : Json} (hitem : item s = .ok (j, s')) (hclose : skipBlanks s' = ']' :: rest) :
    items item (room + 1) s = .ok ([j], rest) := by
  rw [items, hitem]
  simp only [ok_bind, hclose]
  rfl

theorem items_next {j : Json} (hitem : item s = .ok (j, s')) (hcomma : skipBlanks s' = ',' :: s'')
    (hnext : skipBlanks s'' = c :: t) (hc : c ≠ ']') :
    items item (room + 1) s = (items item room (c :: t)).map (Prod.map (j :: ·) id) := by
  rw [items, hitem]
  simp only [ok_bind, hcomma, hnext]
  split
  · next heq => cases heq
  · next heq => exact absurd (List.cons.inj heq).1 hc
  · cases items item room (c :: t) <;> rfl

theorem items_more {j : Json} {js : List Json} (hitem : item s = .ok (j, s'))
    (hcomma : skipBlanks s' = ',' :: s'') (hnext : skipBlanks s'' = c :: t) (hc : c ≠ ']')
    (hrest : items item room (c :: t) = .ok (js, rest)) :
    items item (room + 1) s = .ok (j :: js, rest) := by
  rw [items_next hitem hcomma hnext hc, hrest]
  rfl

theorem member_read {key : String} {j : Json} (hkey : stringTail [] s = .ok (key, s'))
    (hcolon : s' = ':' :: s'') (hitem : item s'' = .ok (j, rest)) :
    member item s = .ok ((key, j), rest) := by
  rw [member, hkey, ok_bind]
  subst hcolon
  change (item s'' >>= fun x => _) = _
  rw [hitem]
  rfl

theorem members_last {m : String × Json} (hmember : member item s = .ok (m, s'))
    (hclose : skipBlanks s' = '}' :: rest) : members item (room + 1) s = .ok ([m], rest) := by
  rw [members, hmember]
  simp only [ok_bind, hclose]
  rfl

theorem members_next {m : String × Json} (hmember : member item s = .ok (m, s'))
    (hcomma : skipBlanks s' = ',' :: s'') (hnext : skipBlanks s'' = '"' :: t) :
    members item (room + 1) s = (members item room t).map (Prod.map (m :: ·) id) := by
  rw [members, hmember]
  simp only [ok_bind, hcomma, hnext]
  cases members item room t <;> rfl

theorem members_more {m : String × Json} {ms : Members} (hmember : member item s = .ok (m, s'))
    (hcomma : skipBlanks s' = ',' :: s'') (hnext : skipBlanks s'' = '"' :: t)
    (hrest : members item room t = .ok (ms, rest)) :
    members item (room + 1) s = .ok (m :: ms, rest) := by
  rw [members_next hmember hcomma hnext, hrest]
  rfl

end

section
variable {P : List Char → Json → Prop} {item : Reader}

/-- Items are read up to the closing bracket, with room for as many. -/
theorem SpellsItems.read {t : List Char} {js : List Json} (h : SpellsItems P t js)
    (hstarts : ∀ s j, P s j → Starts s) (hreads : ∀ s j, P s j → Reads item s j)
    (rest : List Char) :
    ∃ c body, skipBlanks (t ++ ']' :: rest) = c :: body ∧ c ≠ ']' ∧ js.length ≤ body.length + 1 ∧
      ∀ room, js.length ≤ room → items item room (c :: body) = .ok (js, rest) := by
  induction h with
  | @last before s after j hbefore hs hafter =>
    obtain ⟨c, s', rfl, hblank, hc⟩ := hstarts s j hs
    refine ⟨c, s' ++ (after ++ ']' :: rest), ?_, hc, by simp, fun room hroom => ?_⟩
    · simpa using skipBlanks_gap (s := s' ++ (after ++ ']' :: rest)) hbefore hblank
    · obtain ⟨room, rfl⟩ := Nat.exists_eq_add_of_le' hroom
      have hclose : Closes (after ++ ']' :: rest) := .gap hafter (.cons (by simp))
      exact items_last (hreads _ _ hs [] _ blank_nil hclose) (skipBlanks_gap hafter (by decide))
  | @more before s after t j js hbefore hs hafter ht ih =>
    obtain ⟨c, s', rfl, hblank, hc⟩ := hstarts s j hs
    obtain ⟨c', body, hskip, hc', hlength, hread⟩ := ih
    -- Every item takes a character of the text, so the text is room enough for its items.
    have hbody : body.length + 1 ≤ (t ++ ']' :: rest).length := by
      simpa [hskip] using length_skipBlanks_le (t ++ ']' :: rest)
    refine ⟨c, s' ++ (after ++ ',' :: (t ++ ']' :: rest)), ?_, hc, ?_, fun room hroom => ?_⟩
    · simpa using skipBlanks_gap (s := s' ++ (after ++ ',' :: (t ++ ']' :: rest))) hbefore hblank
    · simp only [List.length_append, List.length_cons] at hbody ⊢
      omega
    · obtain ⟨room, rfl⟩ := Nat.exists_eq_add_of_le' hroom
      have hclose : Closes (after ++ ',' :: (t ++ ']' :: rest)) := .gap hafter (.cons (by simp))
      exact items_more (hreads _ _ hs [] _ blank_nil hclose) (skipBlanks_gap hafter (by decide))
        hskip hc' (hread _ (Nat.le_add_left ..))

/-- Members are read up to the closing brace, with room for as many. -/
theorem SpellsMembers.read {t : List Char} {ms : Members} (h : SpellsMembers P t ms)
    (hreads : ∀ s j, P s j → Reads item s j) (rest : List Char) :
    ∃ body, skipBlanks (t ++ '}' :: rest) = '"' :: body ∧ ms.length ≤ body.length ∧
      ∀ room, ms.length ≤ room → members item room body = .ok (ms, rest) := by
  induction h with
  | @last before gap s after j key hbefore hgap hs hafter =>
    have hclose : Closes (after ++ '}' :: rest) := .gap hafter (.cons (by simp))
    refine ⟨key.toList.flatMap escape ++ '"' :: ':' :: (gap ++ (s ++ (after ++ '}' :: rest))),
      ?_, by simp; omega, fun room hroom => ?_⟩
    · simpa [quoted] using skipBlanks_gap
        (s := key.toList.flatMap escape ++ '"' :: ':' :: (gap ++ (s ++ (after ++ '}' :: rest))))
        hbefore (by decide)
    · obtain ⟨room, rfl⟩ := Nat.exists_eq_add_of_le' hroom
      exact members_last (member_read (stringTail_quoted key _) rfl (hreads s j hs gap _ hgap hclose))
        (skipBlanks_gap hafter (by decide))
  | @more before gap s after t j ms key hbefore hgap hs hafter ht ih =>
    obtain ⟨body, hskip, hlength, hread⟩ := ih
    have hbody : body.length + 1 ≤ (t ++ '}' :: rest).length := by
      simpa [hskip] using length_skipBlanks_le (t ++ '}' :: rest)
    have hclose : Closes (after ++ ',' :: (t ++ '}' :: rest)) := .gap hafter (.cons (by simp))
    refine ⟨key.toList.flatMap escape ++
      '"' :: ':' :: (gap ++ (s ++ (after ++ ',' :: (t ++ '}' :: rest)))), ?_, ?_, fun room hroom => ?_⟩
    · simpa [quoted] using skipBlanks_gap
        (s := key.toList.flatMap escape ++
          '"' :: ':' :: (gap ++ (s ++ (after ++ ',' :: (t ++ '}' :: rest))))) hbefore (by decide)
    · simp only [List.length_append, List.length_cons] at hbody ⊢
      omega
    · obtain ⟨room, rfl⟩ := Nat.exists_eq_add_of_le' hroom
      exact members_more
        (member_read (stringTail_quoted key _) rfl (hreads s j hs gap _ hgap hclose))
        (skipBlanks_gap hafter (by decide)) hskip (hread _ (Nat.le_add_left ..))

end

theorem arrayTail_eq {item : Reader} {s body : List Char} {c : Char}
    (hskip : skipBlanks s = c :: body) (hc : c ≠ ']') : arrayTail item s =
      (items item (body.length + 1) (c :: body)).map (Prod.map .array id) := by
  rw [arrayTail, hskip]
  split
  · next heq => cases heq
  · next heq => exact absurd (List.cons.inj heq).1 hc
  · rw [List.length_cons]
    cases items item (body.length + 1) (c :: body) <;> rfl

theorem objectTail_eq {item : Reader} {s body : List Char} (hskip : skipBlanks s = '"' :: body) :
    objectTail item s =
      (members item body.length body).map (Prod.map (fun ms => .object ms.sort) id) := by
  rw [objectTail, hskip]
  change (members item body.length body >>= fun x => _) = _
  cases members item body.length body <;> rfl

theorem SpellsNested.reads {P : List Char → Json → Prop} {depth : Nat} {s : List Char} {j : Json}
    (h : SpellsNested P s j) (hstarts : ∀ s j, P s j → Starts s)
    (hreads : ∀ s j, P s j → Reads (value depth) s j) : Reads (value (depth + 1)) s j := by
  intro gap rest hgap _
  have hopen : ∀ {c : Char} (t : List Char), isBlank c = false →
      skipBlanks (gap ++ (c :: t ++ rest)) = c :: (t ++ rest) :=
    fun t hc => skipBlanks_gap hgap hc
  cases h with
  | emptyArray hinner =>
    rw [value, hopen _ (by decide)]
    simp [arrayTail, skipBlanks_gap hinner (c := ']') (by decide)]
  | emptyObject hinner =>
    rw [value, hopen _ (by decide)]
    simp [objectTail, skipBlanks_gap hinner (c := '}') (by decide)]
  | array ht =>
    obtain ⟨c, body, hskip, hc, hlength, hread⟩ := ht.read hstarts hreads rest
    rw [value, hopen _ (by decide)]
    simp [arrayTail_eq hskip hc, hread _ hlength, Except.map]
  | object ht =>
    obtain ⟨body, hskip, hlength, hread⟩ := ht.read hreads rest
    rw [value, hopen _ (by decide)]
    simp [objectTail_eq hskip, hread _ hlength, Except.map]

/-- What is written by the grammar is read as what it stands for. -/
theorem Spells.reads {depth : Nat} {s : List Char} {j : Json} (h : Spells depth s j) :
    Reads (value depth) s j := by
  induction depth generalizing s j with
  | zero => exact SpellsScalar.reads h 0
  | succ depth ih =>
    rcases h with h | h
    · exact h.reads _
    · -- What an array or an object holds is read one level down.
      exact h.reads (fun _ _ => Spells.starts) fun _ _ => ih

/-- A text with nothing but blanks around a value is read as the value. -/
theorem ofChars_of_spells {depth : Nat} {before s after : List Char} {j : Json}
    (hbefore : Blank before) (h : Spells depth s j) (hafter : Blank after) :
    ofChars depth (before ++ (s ++ after)) = .ok j := by
  rw [ofChars, document, h.reads before after hbefore (closes_blank hafter)]
  simp only [ok_bind, skipBlanks_blank hafter]
  rfl

end CallBridge.Json
