import CallBridge.Proofs.Calendar.Words
import CallBridge.Proofs.Text.Padded
import Mathlib.Order.Monotone.Basic

/-!
# Instants in text

The text of an instant is its seven numbers in a fixed layout. Read back, they are a day of the
calendar and a time of that day, and counting gives the instant again. Later instants have larger
numbers, first place first, and so larger texts as long as the years have four digits.
-/

namespace CallBridge

namespace Date
variable {x : Date}

/-- The numbers of a date, the year first. -/
def numbers (x : Date) : List Nat := [x.year, x.month, x.day]

@[simp] theorem length_numbers (x : Date) : x.numbers.length = 3 := rfl

theorem numbers_lt_next (x : Date) : x.numbers < x.next.numbers := by
  unfold Date.next
  split_ifs with hd hm <;> simp [numbers, List.cons_lt_cons_iff]

theorem numbers_strictMono : StrictMono fun d => (ofDay d).numbers :=
  strictMono_nat_of_lt_succ fun d => by
    rw [ofDay_succ]
    exact numbers_lt_next _

end Date

namespace Calendar
open Text

/-- The places of an instant in text. -/
def layout : List (Nat × Char) :=
  [(4, '-'), (2, '-'), (2, 'T'), (2, ':'), (2, ':'), (2, '.'), (3, 'Z')]

/-- The hour, the minute and the second of a day. -/
def timeOfDay (seconds : Nat) : List Nat :=
  [seconds % 86400 / 3600, seconds % 3600 / 60, seconds % 60]

/-- The numbers of an instant. -/
def numbers (seconds milliseconds : Nat) : List Nat :=
  (Date.ofDay (seconds / 86400)).numbers ++ (timeOfDay seconds ++ [milliseconds])

/-- The instant of a text, if it is one from 1970 on: a day of the calendar and a time of day. -/
def read? (text : String) : Option (Nat × Nat) :=
  match unmarked? layout text.toList with
  | some [year, month, day, hour, minute, second, milliseconds] =>
    let date : Date := ⟨year, month, day⟩
    if date.IsCivil ∧ 1970 ≤ year ∧ hour < 24 ∧ minute < 60 ∧ second < 60 ∧ milliseconds < 1000 then
      some (86400 * date.sinceEpoch + 3600 * hour + 60 * minute + second, milliseconds)
    else none
  | _ => none

variable {seconds milliseconds : Nat}

@[simp] theorem length_timeOfDay (seconds : Nat) : (timeOfDay seconds).length = 3 := rfl

theorem toList_stamp (year month day hour minute second milliseconds : Nat) :
    (s!"{padded 4 year}-{padded 2 month}-{padded 2 day}" ++
      s!"T{padded 2 hour}:{padded 2 minute}:{padded 2 second}.{padded 3 milliseconds}Z").toList =
      marked layout [year, month, day, hour, minute, second, milliseconds] := by
  simp [marked, layout, ToString.toString]

theorem toList_format (seconds milliseconds : Nat) :
    (format seconds milliseconds).toList = marked layout (numbers seconds milliseconds) := by
  rw [format]
  exact toList_stamp _ _ _ _ _ _ _

theorem unmarked?_format (seconds milliseconds : Nat) :
    unmarked? layout (format seconds milliseconds).toList =
      some (numbers seconds milliseconds) := by
  rw [toList_format]
  exact unmarked?_marked (by decide) rfl

theorem read?_of_numbers {text : String} {date : Date} {hour minute second : Nat}
    (ht : unmarked? layout text.toList =
      some (date.numbers ++ ([hour, minute, second] ++ [milliseconds])))
    (hdate : date.IsCivil) (hyear : 1970 ≤ date.year) (hhour : hour < 24) (hminute : minute < 60)
    (hsecond : second < 60) (h : milliseconds < 1000) :
    read? text = some (86400 * date.sinceEpoch + 3600 * hour + 60 * minute + second,
      milliseconds) := by
  unfold read?
  rw [ht]
  dsimp only [Date.numbers, List.cons_append, List.nil_append]
  rw [if_pos ⟨hdate, hyear, hhour, hminute, hsecond, h⟩]

theorem read?_format (seconds : Nat) (h : milliseconds < 1000) :
    read? (format seconds milliseconds) = some (seconds, milliseconds) := by
  have htime : 86400 * (seconds / 86400) + 3600 * (seconds % 86400 / 3600) +
      60 * (seconds % 3600 / 60) + seconds % 60 = seconds := by omega
  rw [read?_of_numbers (unmarked?_format seconds milliseconds) (Date.isCivil_ofDay _)
    (Date.year_ofDay _) (by omega) (by omega) (by omega) h, Date.sinceEpoch_ofDay, htime]

theorem timeOfDay_lt {t t' : Nat} (hday : t / 86400 = t' / 86400) (h : t < t') :
    timeOfDay t < timeOfDay t' := by
  unfold timeOfDay
  rw [List.cons_lt_cons_iff, List.cons_lt_cons_iff, List.cons_lt_cons_iff]
  omega

theorem numbers_strictMono : StrictMono fun t => numbers (t / 1000) (t % 1000) := by
  intro t t' h
  have hdate := Date.numbers_strictMono
  dsimp only [numbers]
  rw [append_lt_append_iff (by simp), append_lt_append_iff (by simp)]
  obtain hd | hd : t / 1000 / 86400 < t' / 1000 / 86400 ∨ t / 1000 / 86400 = t' / 1000 / 86400 := by
    omega
  · exact .inl (hdate hd)
  · refine .inr ⟨by rw [hd], ?_⟩
    obtain hs | hs : t / 1000 < t' / 1000 ∨ t / 1000 = t' / 1000 := by omega
    · exact .inl (timeOfDay_lt hd hs)
    · refine .inr ⟨by rw [hs], ?_⟩
      simp only [List.cons_lt_cons_iff]
      omega

theorem fits_numbers (hyear : (Date.ofDay (seconds / 86400)).year ≤ 9999)
    (h : milliseconds < 1000) : Fits layout (numbers seconds milliseconds) := by
  have hcivil := Date.isCivil_ofDay (seconds / 86400)
  have hmonth := hcivil.month_le
  have hday := hcivil.day_le.trans (Date.daysIn_le _ _)
  simp only [Fits, layout, numbers, timeOfDay, Date.numbers, List.cons_append, List.nil_append,
    List.forall₂_cons, List.forall₂_nil_left_iff, Nat.reducePow, Nat.reduceLT, true_and, and_true]
  omega

theorem format_lt_format_iff {seconds' milliseconds' : Nat}
    (hyear : (Date.ofDay (seconds / 86400)).year ≤ 9999) (h : milliseconds < 1000)
    (hyear' : (Date.ofDay (seconds' / 86400)).year ≤ 9999) (h' : milliseconds' < 1000) :
    format seconds milliseconds < format seconds' milliseconds' ↔
      1000 * seconds + milliseconds < 1000 * seconds' + milliseconds' := by
  have hlt := numbers_strictMono.lt_iff_lt (a := 1000 * seconds + milliseconds)
    (b := 1000 * seconds' + milliseconds')
  have hparts {s ms : Nat} (h : ms < 1000) :
      (1000 * s + ms) / 1000 = s ∧ (1000 * s + ms) % 1000 = ms := by omega
  rw [(hparts h).1, (hparts h).2, (hparts h').1, (hparts h').2] at hlt
  rw [String.lt_iff_toList_lt, toList_format, toList_format,
    marked_lt_marked_iff (fits_numbers hyear h) (fits_numbers hyear' h'), hlt]

/-- The text of an instant names its day of the calendar and its time of that day: the days follow
one another from the first of January 1970 on, finding one overflows no word, the text reads back
as the instant and as no other, and to the year 9999 texts are ordered as their instants are. -/
theorem format_civil (seconds milliseconds : Nat) (hs : seconds < wordLimit)
    (hm : milliseconds < 1000) :
    Date.ofDay 0 = ⟨1970, 1, 1⟩ ∧
    (∀ d, (Date.ofDay d).IsCivil ∧ Date.ofDay (d + 1) = (Date.ofDay d).next) ∧
    Date.ofDayInWords ↑(seconds / 86400) = (Word.lit (Date.ofDay (seconds / 86400)).year,
      Word.lit (Date.ofDay (seconds / 86400)).month, Word.lit (Date.ofDay (seconds / 86400)).day) ∧
    (format seconds milliseconds).toList = marked layout (numbers seconds milliseconds) ∧
    read? (format seconds milliseconds) = some (seconds, milliseconds) ∧
    ∀ seconds' milliseconds', seconds' < wordLimit → milliseconds' < 1000 →
      (format seconds milliseconds = format seconds' milliseconds' →
        seconds = seconds' ∧ milliseconds = milliseconds') ∧
      ((Date.ofDay (seconds / 86400)).year ≤ 9999 →
        (Date.ofDay (seconds' / 86400)).year ≤ 9999 →
        (format seconds milliseconds < format seconds' milliseconds' ↔
          1000 * seconds + milliseconds < 1000 * seconds' + milliseconds')) := by
  refine ⟨rfl, fun d => ⟨Date.isCivil_ofDay d, Date.ofDay_succ d⟩, ?_, toList_format _ _,
    read?_format seconds hm, fun seconds' milliseconds' _ hm' => ⟨fun heq => ?_, fun hyear hyear' =>
      format_lt_format_iff hyear hm hyear' hm'⟩⟩
  · have hlimit : seconds < 2 ^ 64 := hs
    exact Date.ofDayInWords_natCast (by unfold Date.epochDay; omega)
  · have hread := read?_format seconds hm
    rw [heq, read?_format seconds' hm'] at hread
    simpa [eq_comm] using hread

theorem format_civil_leapDay : read? (format 1709210096 7) = some (1709210096, 7) ∧
    format 1709210096 7 < format 1709210097 0 := by
  obtain ⟨-, -, -, -, hread, hothers⟩ := format_civil 1709210096 7 (by decide) (by decide)
  have horder := (hothers 1709210097 0 (by decide) (by decide)).2 (by decide) (by decide)
  exact ⟨hread, horder.2 (by decide)⟩

end Calendar
end CallBridge
