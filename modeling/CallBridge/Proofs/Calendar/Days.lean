import CallBridge.Calendar
import Mathlib.Algebra.BigOperators.Intervals
import Mathlib.Tactic.IntervalCases

/-!
# Days of the calendar

`Date.ofDay` against the calendar itself: a day has a successor, by the lengths of the months and
the rule of leap years, and a number, by counting years, months and days from the first of January
1970 on. Both are linked to the arithmetic through `marchDay`, the number of a day in the years
that begin in March; `ofDay` undoes it, and the successor of a day has the next number.
-/

namespace CallBridge.Date

/-- A year with a leap day. -/
def IsLeap (year : Nat) : Prop := 4 ∣ year ∧ (100 ∣ year → 400 ∣ year)

instance : DecidablePred IsLeap := fun _ => inferInstanceAs (Decidable (_ ∧ (_ → _)))

/-- The days of a month. -/
def daysIn (year : Nat) : Nat → Nat
  | 2 => if IsLeap year then 29 else 28
  | 4 | 6 | 9 | 11 => 30
  | _ => 31

/-- A day of the calendar. -/
structure IsCivil (x : Date) : Prop where
  month_pos : 1 ≤ x.month
  month_le : x.month ≤ 12
  day_pos : 1 ≤ x.day
  day_le : x.day ≤ daysIn x.year x.month

instance : DecidablePred IsCivil := fun x =>
  decidable_of_iff (1 ≤ x.month ∧ x.month ≤ 12 ∧ 1 ≤ x.day ∧ x.day ≤ daysIn x.year x.month)
    ⟨fun ⟨h₁, h₂, h₃, h₄⟩ => ⟨h₁, h₂, h₃, h₄⟩, fun ⟨h₁, h₂, h₃, h₄⟩ => ⟨h₁, h₂, h₃, h₄⟩⟩

/-- The day after. -/
def next (x : Date) : Date :=
  if x.day < daysIn x.year x.month then { x with day := x.day + 1 }
  else if x.month < 12 then ⟨x.year, x.month + 1, 1⟩
  else ⟨x.year + 1, 1, 1⟩

/-- The days from the first of January 1970 to a date, counted by years and months. -/
def sinceEpoch (x : Date) : Nat :=
  ∑ y ∈ Finset.Ico 1970 x.year, ∑ m ∈ Finset.Icc 1 12, daysIn y m +
    ∑ m ∈ Finset.Ico 1 x.month, daysIn x.year m + (x.day - 1)

variable {x : Date} {month : Nat}

theorem daysIn_pos (year month : Nat) : 0 < daysIn year month := by
  unfold daysIn
  split
  · split <;> decide
  all_goals decide

theorem daysIn_le (year month : Nat) : daysIn year month ≤ 31 := by
  unfold daysIn
  split
  · split <;> decide
  all_goals decide

theorem IsCivil.next (h : x.IsCivil) : x.next.IsCivil := by
  obtain ⟨h₁, h₂, h₃, h₄⟩ := h
  unfold Date.next
  split_ifs with hd hm
  · exact ⟨h₁, h₂, by simp, hd⟩
  · exact ⟨by simp, hm, le_rfl, daysIn_pos _ _⟩
  · exact ⟨le_rfl, by simp, le_rfl, daysIn_pos _ _⟩

theorem year_le_next (x : Date) : x.year ≤ x.next.year := by
  unfold Date.next
  split_ifs <;> simp

theorem sinceEpoch_next (h : x.IsCivil) (hy : 1970 ≤ x.year) :
    x.next.sinceEpoch = x.sinceEpoch + 1 := by
  obtain ⟨h₁, h₂, h₃, h₄⟩ := h
  unfold Date.next sinceEpoch
  split_ifs with hd hm
  · dsimp only
    omega
  · dsimp only
    rw [Finset.sum_Ico_succ_top h₁]
    omega
  · have hm : x.month = 12 := by omega
    dsimp only
    rw [Finset.sum_Ico_succ_top hy, hm]
    have : ∑ m ∈ Finset.Icc 1 12, daysIn x.year m =
        ∑ m ∈ Finset.Ico 1 12, daysIn x.year m + daysIn x.year 12 :=
      Finset.sum_Ico_succ_top (by decide) _
    rw [hm] at hd h₄
    simp only [this, Finset.Ico_self, Finset.sum_empty]
    omega

/-! ### Years that begin in March -/

/-- The year that began in the last March. -/
def marchYear (x : Date) : Nat := if x.month ≤ 2 then x.year - 1 else x.year

/-- The months since the last March. -/
def marchMonth (x : Date) : Nat := (x.month + 9) % 12

/-- The days of a year that begins in March before one of its months. -/
def beforeMonth (m : Nat) : Nat := (153 * m + 2) / 5

/-- The days before a year that begins in March. -/
def beforeYear (y : Nat) : Nat := 365 * y + y / 4 - y / 100 + y / 400

/-- The days since the first of March of the year zero. -/
def marchDay (x : Date) : Nat := beforeYear x.marchYear + beforeMonth x.marchMonth + (x.day - 1)

theorem beforeYear_succ (y : Nat) :
    beforeYear (y + 1) = beforeYear y + if IsLeap (y + 1) then 366 else 365 := by
  have h₁ : 400 ∣ y + 1 → 100 ∣ y + 1 := Nat.dvd_trans (by decide)
  have h₂ : 100 ∣ y + 1 → 4 ∣ y + 1 := Nat.dvd_trans (by decide)
  have hle : y / 100 ≤ y / 4 := Nat.div_le_div_left (by decide) (by decide)
  simp only [beforeYear, IsLeap, Nat.succ_div]
  by_cases h400 : 400 ∣ y + 1
  · simp only [h400, h₁ h400, h₂ (h₁ h400), if_true, implies_true, and_true]
    omega
  by_cases h100 : 100 ∣ y + 1
  · simp only [h400, h100, h₂ h100, if_true, if_false, true_implies, and_false]
    omega
  by_cases h4 : 4 ∣ y + 1
  · simp only [h400, h100, h4, if_true, if_false, false_implies, and_true]
    omega
  · simp only [h400, h100, h4, if_false, false_and]
    omega

/-- From March to January the lengths of the months are the steps of a line of slope 153/5. -/
theorem beforeMonth_succ (year : Nat) (h₁ : 1 ≤ month) (h₂ : month ≤ 12) (hm : month ≠ 2) :
    beforeMonth ((month + 10) % 12) = beforeMonth ((month + 9) % 12) + daysIn year month := by
  interval_cases month
  case «2» => exact absurd rfl hm
  all_goals rfl

theorem marchDay_mk (y m d : Nat) : marchDay ⟨y, m, d⟩ =
    beforeYear (if m ≤ 2 then y - 1 else y) + beforeMonth ((m + 9) % 12) + (d - 1) :=
  rfl

theorem marchDay_next (h : x.IsCivil) (hy : 1 ≤ x.year) : x.next.marchDay = x.marchDay + 1 := by
  obtain ⟨y, m, d⟩ := x
  obtain ⟨h₁, h₂, h₃, h₄⟩ := h
  dsimp only at h₁ h₂ h₃ h₄ hy
  unfold Date.next
  split_ifs with hd hm <;> dsimp only at hd
  · simp only [marchDay_mk]
    omega
  all_goals obtain rfl : d = daysIn y m := by omega
  · dsimp only at hm
    simp only [marchDay_mk]
    obtain rfl | hf := eq_or_ne m 2
    · -- the first of March begins another year
      have hleap := beforeYear_succ (y - 1)
      rw [Nat.sub_add_cancel hy] at hleap
      simp only [Nat.reduceLeDiff, if_true, if_false, hleap, beforeMonth, daysIn]
      split_ifs <;> omega
    · have hyear : m + 1 ≤ 2 ↔ m ≤ 2 := by omega
      simp only [hyear, beforeMonth_succ y h₁ h₂ hf]
      omega
  · obtain rfl : m = 12 := by dsimp only at hm; omega
    simp [marchDay_mk, beforeMonth, daysIn]

/-- The days of an era from centuries, cycles of four years, years and days. -/
theorem yearOfEra_eq {c q r t e : Nat} (hc : c < 4) (hq : q < 25) (hr : r < 4) (ht : t ≤ 365)
    (hleap : t = 365 → r = 3 ∧ (q = 24 → c = 3)) (he : e = 36524 * c + 1461 * q + 365 * r + t) :
    (e - e / 1460 + e / 36524 - e / 146096) / 365 = 100 * c + 4 * q + r := by
  have hsplit : e = 24 * c + q + 365 * r + t + (25 * c + q) * 1460 := by omega
  obtain ⟨l, hl⟩ : ∃ l, (24 * c + q + 365 * r + t) / 1460 = l := ⟨_, rfl⟩
  have hday : l ≤ t ∧ t < 365 + l := by
    obtain rfl | rfl : l = 0 ∨ l = 1 := by omega
    all_goals omega
  have hcentury : e / 36524 = c + e / 146096 := by
    have : e < 36524 * (c + 1) ∧ e < 146096 ∨ c = 3 ∧ e = 146096 := by omega
    omega
  -- four years have one leap day, their last; what else this counts makes up for the centuries
  have hcycle : e / 1460 = l + (25 * c + q) := by
    rw [hsplit, Nat.add_mul_div_right _ _ (by decide), hl]
  rw [hcentury, hcycle]
  clear hcentury hcycle hl hleap
  omega

theorem inYear_eq {c q r t e : Nat} (hq : q < 25) (hr : r < 4)
    (he : e = 36524 * c + 1461 * q + 365 * r + t) :
    e - (365 * (100 * c + 4 * q + r) + (100 * c + 4 * q + r) / 4 - (100 * c + 4 * q + r) / 100) =
      t := by
  have h₁ : (100 * c + 4 * q + r) / 4 = 25 * c + q := by omega
  have h₂ : (100 * c + 4 * q + r) / 100 = c := by omega
  rw [h₁, h₂]
  omega

/-- Only the last of four years ends with a leap day, and of the last of a century only every
fourth. -/
theorem IsLeap.last {a c q r : Nat} (h : IsLeap (100 * c + 4 * q + r + a * 400 + 1)) (hc : c < 4)
    (hq : q < 25) (hr : r < 4) : r = 3 ∧ (q = 24 → c = 3) := by
  obtain ⟨h4, h100⟩ := h
  obtain rfl : r = 3 := by clear h100; omega
  refine ⟨rfl, ?_⟩
  rintro rfl
  have h400 := h100 (by omega)
  clear h4 h100
  omega

theorem beforeYear_eq {a c q r : Nat} (hc : c < 4) (hq : q < 25) (hr : r < 4) :
    beforeYear (100 * c + 4 * q + r + a * 400) =
      146097 * a + (36524 * c + 1461 * q + 365 * r) := by
  have h₁ : (100 * c + 4 * q + r + a * 400) / 4 = 100 * a + 25 * c + q := by omega
  have h₂ : (100 * c + 4 * q + r + a * 400) / 100 = 4 * a + c := by omega
  have h₃ : (100 * c + 4 * q + r + a * 400) / 400 = a := by omega
  unfold beforeYear
  rw [h₁, h₂, h₃]
  omega

namespace IsCivil

theorem cases_month (h : x.IsCivil) :
    x.marchMonth = 11 ∧ x.month = 2 ∧ x.day ≤ 28 + (if IsLeap x.year then 1 else 0) ∨
      x.marchMonth < 11 ∧ x.day ≤ beforeMonth (x.marchMonth + 1) - beforeMonth x.marchMonth := by
  obtain ⟨y, m, d⟩ := x
  obtain ⟨h₁, h₂, h₃, h₄⟩ := h
  dsimp only at h₁ h₂ h₃ h₄
  unfold marchMonth
  dsimp only
  interval_cases m
  case «2» =>
    refine .inl ⟨rfl, rfl, ?_⟩
    rw [daysIn] at h₄
    split_ifs at h₄ ⊢ <;> exact h₄
  all_goals exact .inr ⟨by decide, h₄⟩

theorem fromMarch_eq (h : x.IsCivil) :
    (5 * (beforeMonth x.marchMonth + (x.day - 1)) + 2) / 153 = x.marchMonth := by
  have hd := h.day_pos
  unfold beforeMonth
  obtain ⟨hm, -, hday⟩ | ⟨hm, hday⟩ := h.cases_month
  · have : x.day ≤ 29 := by split_ifs at hday <;> omega
    omega
  · unfold beforeMonth at hday
    omega

/-- A year that begins in March has 365 days, or 366 if the next year has a leap day. -/
theorem inMarchYear_le (h : x.IsCivil) (hy : 1 ≤ x.year) :
    beforeMonth x.marchMonth + (x.day - 1) ≤ 365 ∧
      (beforeMonth x.marchMonth + (x.day - 1) = 365 → IsLeap (x.marchYear + 1)) := by
  obtain ⟨hm, hf, hday⟩ | ⟨hm, hday⟩ := h.cases_month
  · have hyear : x.marchYear + 1 = x.year := by
      unfold marchYear
      split_ifs <;> omega
    rw [hm, hyear]
    unfold beforeMonth
    split_ifs at hday with hleap
    · exact ⟨by omega, fun _ => hleap⟩
    · omega
  · unfold beforeMonth at *
    omega

theorem month_eq (h : x.IsCivil) :
    (if x.marchMonth < 10 then x.marchMonth + 3 else x.marchMonth - 9) = x.month := by
  have := h.month_pos
  have := h.month_le
  unfold marchMonth
  split_ifs <;> omega

end IsCivil

theorem year_eq (hy : 1 ≤ x.year) : x.marchYear + (if x.month ≤ 2 then 1 else 0) = x.year := by
  unfold marchYear
  split_ifs <;> omega

/-- The arithmetic finds a day of the calendar by its number. -/
theorem IsCivil.ofDay_eq (h : x.IsCivil) (hy : 1 ≤ x.year) {d : Nat}
    (hd : d + epochDay = x.marchDay) : ofDay d = x := by
  -- the era, the century, the cycle of four years and the year in it
  obtain ⟨a, c, q, r, hc, hq, hr, hyear⟩ : ∃ a c q r, c < 4 ∧ q < 25 ∧ r < 4 ∧
      x.marchYear = 100 * c + 4 * q + r + a * 400 :=
    ⟨x.marchYear / 400, x.marchYear % 400 / 100, x.marchYear % 100 / 4, x.marchYear % 4,
      by omega, by omega, by omega, by omega⟩
  obtain ⟨t, ht⟩ : ∃ t, beforeMonth x.marchMonth + (x.day - 1) = t := ⟨_, rfl⟩
  have hmonth := h.fromMarch_eq
  have hday : t - beforeMonth x.marchMonth + 1 = x.day := by
    have := h.day_pos
    omega
  have hlen := h.inMarchYear_le hy
  rw [marchDay, hyear, beforeYear_eq hc hq hr, Nat.add_assoc, ht] at hd
  rw [ht] at hmonth hlen
  obtain ⟨e, he⟩ : ∃ e, (d + epochDay) % eraDays = e := ⟨_, rfl⟩
  have hera : (d + epochDay) / eraDays = a := by
    unfold eraDays
    omega
  have hinEra : e = 36524 * c + 1461 * q + 365 * r + t := by
    unfold eraDays at he
    omega
  have hlast : t = 365 → r = 3 ∧ (q = 24 → c = 3) := fun ht => (hyear ▸ hlen.2 ht).last hc hq hr
  have hyearOfEra := yearOfEra_eq hc hq hr hlen.1 hlast hinEra
  unfold beforeMonth at hday
  unfold ofDay
  simp only [he, hera, hyearOfEra, inYear_eq hq hr hinEra, hmonth, h.month_eq, hday, ← hyear,
    year_eq hy]

/-- What the arithmetic finds is a day of the calendar, the one with that number. -/
theorem ofDay_spec (d : Nat) :
    (ofDay d).IsCivil ∧ 1970 ≤ (ofDay d).year ∧ (ofDay d).marchDay = d + epochDay := by
  induction d with
  | zero => exact ⟨by decide, by decide, by decide⟩
  | succ d ih =>
    obtain ⟨hcivil, hyear, hday⟩ := ih
    have hyear' : 1970 ≤ (ofDay d).next.year := hyear.trans (year_le_next _)
    have hday' : (ofDay d).next.marchDay = d + 1 + epochDay := by
      rw [marchDay_next hcivil (by omega), hday]
      omega
    rw [hcivil.next.ofDay_eq (by omega) hday'.symm]
    exact ⟨hcivil.next, hyear', hday'⟩

theorem isCivil_ofDay (d : Nat) : (ofDay d).IsCivil := (ofDay_spec d).1

theorem year_ofDay (d : Nat) : 1970 ≤ (ofDay d).year := (ofDay_spec d).2.1

theorem ofDay_succ (d : Nat) : ofDay (d + 1) = (ofDay d).next := by
  obtain ⟨hcivil, hyear, hday⟩ := ofDay_spec d
  have hyear' := hyear.trans (year_le_next _)
  refine hcivil.next.ofDay_eq (by omega) ?_
  rw [marchDay_next hcivil (by omega), hday]
  omega

theorem sinceEpoch_ofDay (d : Nat) : (ofDay d).sinceEpoch = d := by
  induction d with
  | zero => decide
  | succ d ih => rw [ofDay_succ, sinceEpoch_next (isCivil_ofDay d) (year_ofDay d), ih]

end CallBridge.Date
