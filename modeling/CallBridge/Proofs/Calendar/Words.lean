import CallBridge.Proofs.Calendar.Days

/-!
# Dates in words

The arithmetic of `Date.ofDay` as a machine carries it out: each number on the way has to fit a
signed word of 64 bits, and the month and the day end in unsigned words of 32. `ofDayInWords`
follows it operation by operation on numbers that may be missing. With `exists_parts`, which takes
a day of an era apart, no difference falls below zero and nothing leaves the words.
-/

namespace CallBridge.Word

/-- A number, if a signed word of 64 bits holds it. -/
def word? (n : Int) : Option Int := if -2 ^ 63 ≤ n ∧ n < 2 ^ 63 then some n else none

/-- A number, if an unsigned word of 32 bits holds it. -/
def halfWord? (n : Int) : Option Int := if 0 ≤ n ∧ n < 2 ^ 32 then some n else none

/-- A number known beforehand. -/
def lit (n : Nat) : Option Int := some n

/-- An operation, if both numbers are there and a word holds the outcome. -/
def checked (f : Int → Int → Int) (a b : Option Int) : Option Int := do word? (f (← a) (← b))

def plus? : Option Int → Option Int → Option Int := checked (· + ·)
def minus? : Option Int → Option Int → Option Int := checked (· - ·)
def times? : Option Int → Option Int → Option Int := checked (· * ·)

/-- The quotient, rounded towards zero. -/
def over? : Option Int → Option Int → Option Int := checked Int.tdiv

/-- The quotient, rounded down, and what it leaves. -/
def floor? : Option Int → Option Int → Option Int := checked (· / ·)
def mod? : Option Int → Option Int → Option Int := checked (· % ·)

def ifBelow? (a b x y : Option Int) : Option Int := do if (← a) < (← b) then x else y

variable {a b : Nat} {x y : Option Int}

theorem word?_natCast (h : a < 2 ^ 63) : word? a = lit a :=
  if_pos (by omega)

theorem halfWord?_lit (h : a < 2 ^ 32) : lit a >>= halfWord? = lit a := by
  rw [lit, Option.bind_eq_bind, Option.bind_some, halfWord?, if_pos (by omega)]

theorem checked_lit {f : Int → Int → Int} (c : Nat) (hf : f a b = c) (hc : c < 2 ^ 63) :
    checked f (lit a) (lit b) = lit c := by
  simp only [checked, lit, Option.bind_eq_bind, Option.bind_some, hf]
  exact word?_natCast hc

theorem plus?_lit (h : a + b < 2 ^ 63) : plus? (lit a) (lit b) = lit (a + b) :=
  checked_lit _ (Nat.cast_add a b).symm h

theorem minus?_lit (h : b ≤ a) (ha : a < 2 ^ 63) : minus? (lit a) (lit b) = lit (a - b) :=
  checked_lit _ (Nat.cast_sub h).symm (by omega)

theorem times?_lit (h : a * b < 2 ^ 63) : times? (lit a) (lit b) = lit (a * b) :=
  checked_lit _ (Nat.cast_mul a b).symm h

theorem over?_lit (h : a < 2 ^ 63) : over? (lit a) (lit b) = lit (a / b) :=
  checked_lit _ (Int.ofNat_tdiv a b).symm (lt_of_le_of_lt (Nat.div_le_self a b) h)

theorem floor?_lit (h : a < 2 ^ 63) : floor? (lit a) (lit b) = lit (a / b) :=
  checked_lit _ (Int.natCast_ediv a b).symm (lt_of_le_of_lt (Nat.div_le_self a b) h)

theorem mod?_lit (h : a < 2 ^ 63) : mod? (lit a) (lit b) = lit (a % b) :=
  checked_lit _ (Int.natCast_emod a b).symm (lt_of_le_of_lt (Nat.mod_le a b) h)

theorem ifBelow?_lit : ifBelow? (lit a) (lit b) x y = if a < b then x else y := by
  simp [ifBelow?, lit]

end CallBridge.Word

namespace CallBridge.Date
open Word

def yearOfEra? (e : Option Int) : Option Int :=
  over? (minus? (plus? (minus? e (over? e (lit 1460))) (over? e (lit 36524)))
    (over? e (lit 146096))) (lit 365)

def inYear? (e y : Option Int) : Option Int :=
  minus? e (minus? (plus? (times? (lit 365) y) (over? y (lit 4))) (over? y (lit 100)))

def fromMarch? (t : Option Int) : Option Int := over? (plus? (times? (lit 5) t) (lit 2)) (lit 153)

def month? (m : Option Int) : Option Int :=
  ifBelow? m (lit 10) (plus? m (lit 3)) (minus? m (lit 9)) >>= halfWord?

def day? (t m : Option Int) : Option Int :=
  plus? (minus? t (over? (plus? (times? (lit 153) m) (lit 2)) (lit 5))) (lit 1) >>= halfWord?

def year? (y era month : Option Int) : Option Int :=
  plus? (plus? y (times? era (lit 400))) (ifBelow? month (lit 3) (lit 1) (lit 0))

/-- The year, the month and the day that the arithmetic finds in words of 64 bits, the last two cut
to 32; nothing where a number on the way does not fit. -/
def ofDayInWords (d : Int) : Option Int × Option Int × Option Int :=
  let z := plus? (word? d) (lit epochDay)
  let era := floor? z (lit eraDays)
  let e := mod? z (lit eraDays)
  let y := yearOfEra? e
  let t := inYear? e y
  let m := fromMarch? t
  (year? y era (month? m), month? m, day? t m)

theorem yearOfEra?_lit {e : Nat} (h : e < eraDays) :
    yearOfEra? (lit e) = lit ((e - e / 1460 + e / 36524 - e / 146096) / 365) := by
  unfold eraDays at h
  unfold yearOfEra?
  simp (disch := omega) only [plus?_lit, minus?_lit, over?_lit]

theorem inYear?_lit {e y : Nat} (h : e < eraDays) (hy : 365 * y + y / 4 - y / 100 ≤ e) :
    inYear? (lit e) (lit y) = lit (e - (365 * y + y / 4 - y / 100)) := by
  unfold eraDays at h
  unfold inYear?
  simp (disch := omega) only [plus?_lit, minus?_lit, over?_lit, times?_lit]

theorem fromMarch?_lit {t : Nat} (h : t < 366) :
    fromMarch? (lit t) = lit ((5 * t + 2) / 153) := by
  unfold fromMarch?
  simp (disch := omega) only [plus?_lit, over?_lit, times?_lit]

theorem month?_lit {m : Nat} (h : m < 12) :
    month? (lit m) = lit (if m < 10 then m + 3 else m - 9) := by
  unfold month?
  rw [ifBelow?_lit]
  split_ifs with hm
  · rw [plus?_lit (by omega), halfWord?_lit (by omega)]
  · rw [minus?_lit (by omega) (by omega), halfWord?_lit (by omega)]

theorem day?_lit {t m : Nat} (h : t < 366) (hm : (153 * m + 2) / 5 ≤ t) :
    day? (lit t) (lit m) = lit (t - (153 * m + 2) / 5 + 1) := by
  unfold day?
  simp (disch := omega) only [plus?_lit, minus?_lit, over?_lit, times?_lit, halfWord?_lit]

theorem year?_lit {y a m : Nat} (h : y + a * 400 + 1 < 2 ^ 63) :
    year? (lit y) (lit a) (lit m) = lit (y + a * 400 + if m ≤ 2 then 1 else 0) := by
  unfold year?
  rw [ifBelow?_lit, times?_lit (by omega), plus?_lit (by omega)]
  simp only [Nat.lt_succ_iff]
  split_ifs <;> rw [plus?_lit (by omega)]

/-- Every day of an era is so many whole centuries, cycles of four years and years after its
beginning. -/
theorem exists_parts {e : Nat} (he : e < eraDays) : ∃ c q r t, c < 4 ∧ q < 25 ∧ r < 4 ∧ t ≤ 365 ∧
    (t = 365 → r = 3 ∧ (q = 24 → c = 3)) ∧ e = 36524 * c + 1461 * q + 365 * r + t := by
  unfold eraDays at he
  obtain ⟨c, f, hc, hf, hce⟩ : ∃ c f, c < 4 ∧ (f < 36524 ∨ c = 3 ∧ f = 36524) ∧
      e = 36524 * c + f :=
    ⟨min (e / 36524) 3, e - 36524 * min (e / 36524) 3, by omega, by omega, by omega⟩
  obtain ⟨q, g, hg, hqf⟩ : ∃ q g, g < 1461 ∧ f = 1461 * q + g :=
    ⟨f / 1461, f % 1461, by omega, by omega⟩
  obtain ⟨r, t, hr, ht, hrg⟩ : ∃ r t, r < 4 ∧ (t < 365 ∨ r = 3 ∧ t = 365) ∧ g = 365 * r + t :=
    ⟨min (g / 365) 3, g - 365 * min (g / 365) 3, by omega, by omega, by omega⟩
  exact ⟨c, q, r, t, hc, by omega, hr, by omega, by omega, by omega⟩

/-- No number on the way from a day to its date leaves the words. -/
theorem ofDayInWords_natCast {d : Nat} (h : d + epochDay < 2 ^ 62) :
    ofDayInWords d = (lit (ofDay d).year, lit (ofDay d).month, lit (ofDay d).day) := by
  have hz : plus? (word? d) (lit epochDay) = lit (d + epochDay) := by
    rw [word?_natCast (by omega), plus?_lit (by omega)]
  -- each number on the way has a name, so that it is bounded without those before it
  obtain ⟨z, hz'⟩ : ∃ z, d + epochDay = z := ⟨_, rfl⟩
  obtain ⟨a, ha⟩ : ∃ a, z / eraDays = a := ⟨_, rfl⟩
  obtain ⟨e, he⟩ : ∃ e, z % eraDays = e := ⟨_, rfl⟩
  have helt : e < eraDays := he ▸ Nat.mod_lt _ (by decide)
  obtain ⟨c, q, r, t, hc, hq, hr, ht, hlast, hparts⟩ := exists_parts helt
  obtain ⟨y, hy⟩ : ∃ y, (e - e / 1460 + e / 36524 - e / 146096) / 365 = y := ⟨_, rfl⟩
  have hyear : y = 100 * c + 4 * q + r := hy ▸ yearOfEra_eq hc hq hr ht hlast hparts
  obtain ⟨n, hn⟩ : ∃ n, e - (365 * y + y / 4 - y / 100) = n := ⟨_, rfl⟩
  have hle : 365 * y + y / 4 - y / 100 ≤ e := by omega
  have hnlt : n < 366 := by omega
  obtain ⟨m, hm⟩ : ∃ m, (5 * n + 2) / 153 = m := ⟨_, rfl⟩
  have hmlt : m < 12 := by omega
  have hmle : (153 * m + 2) / 5 ≤ n := by omega
  have hera : y + a * 400 + 1 < 2 ^ 63 := by
    unfold eraDays at ha
    omega
  unfold ofDayInWords ofDay
  simp only [hz, hz', floor?_lit (hz' ▸ h.trans (by decide) : z < 2 ^ 63),
    mod?_lit (hz' ▸ h.trans (by decide) : z < 2 ^ 63), ha, he, yearOfEra?_lit helt, hy,
    inYear?_lit helt hle, hn, fromMarch?_lit hnlt, hm, month?_lit hmlt, day?_lit hnlt hmle,
    year?_lit hera]

end CallBridge.Date
