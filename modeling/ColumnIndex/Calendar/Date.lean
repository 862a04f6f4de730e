import ColumnIndex.Text.Digits

/-!
# Calendar dates

Dates of the proleptic Gregorian calendar, with astronomical years: the year before year 1 is
year 0. Days are counted from 1 January 1970.

## Main definitions

* `Date` — a year, a month and a day that exists.
* `Date.dayNumber` — the count of days since 1 January 1970.
* `newYear` — the day number of the first day of a year.
* `weekdayOf` — the day of the week of a day number, Monday being 0.
-/
namespace ColumnIndex

namespace Calendar

/-- Whether the year has 366 days. -/
def isLeapYear (year : Int) : Bool := year % 4 == 0 && (year % 100 != 0 || year % 400 == 0)

/-- How many days the year has. -/
def daysInYear (year : Int) : Nat := if isLeapYear year then 366 else 365

/-- How many days the month has; there is no month 0 and none after 12. -/
def daysInMonth (year : Int) (month : Nat) : Nat :=
  match month with
  | 1 | 3 | 5 | 7 | 8 | 10 | 12 => 31
  | 4 | 6 | 9 | 11 => 30
  | 2 => if isLeapYear year then 29 else 28
  | _ => 0

/-- How many days of the year come before the month. -/
def daysBeforeMonth (year : Int) : Nat → Nat
  | 0 => 0
  | month + 1 => daysBeforeMonth year month + daysInMonth year month

/-- The day number of the first day of the year. -/
def newYear (year : Int) : Int :=
  let past := year - 1
  365 * past + past / 4 - past / 100 + past / 400 - 719162

/-- The day of the week of a day number: 0 is Monday, 6 is Sunday. -/
def weekdayOf (day : Int) : Int := (day + 3) % 7

/-- How many weeks the year has when a week belongs to the year of its Thursday. -/
def weeksInYear (year : Int) : Nat :=
  let first := weekdayOf (newYear year)
  if first = 3 ∨ (first = 2 ∧ isLeapYear year) then 53 else 52

/-- The Monday of the first week of the year, which is the week of 4 January. -/
def firstMonday (year : Int) : Int := newYear year + 3 - weekdayOf (newYear year + 3)

/-- A year is followed by the next one after as many days as it has. -/
theorem newYear_succ (year : Int) : newYear (year + 1) = newYear year + daysInYear year := by
  unfold newYear daysInYear isLeapYear
  simp only [Bool.and_eq_true, Bool.or_eq_true, beq_iff_eq, bne_iff_ne]
  split <;> omega

end Calendar

open Calendar

/-- A day of the calendar, within the years that have at most four digits. -/
structure Date where
  year : Int
  month : Nat
  day : Nat
  year_range : -9999 ≤ year ∧ year ≤ 9999
  month_range : 1 ≤ month ∧ month ≤ 12
  day_range : 1 ≤ day ∧ day ≤ daysInMonth year month
  deriving DecidableEq

namespace Date

/-- The date with the parts, if there is one. -/
def ofParts? (year : Int) (month day : Nat) : Option Date :=
  if h : (-9999 ≤ year ∧ year ≤ 9999) ∧ (1 ≤ month ∧ month ≤ 12) ∧
      (1 ≤ day ∧ day ≤ daysInMonth year month) then
    some ⟨year, month, day, h.1, h.2.1, h.2.2⟩
  else none

/-- The count of days since 1 January 1970. -/
def dayNumber (d : Date) : Int := newYear d.year + daysBeforeMonth d.year d.month + (d.day - 1)

/-- The year with at least four digits, then month and day with two each. -/
def chars (d : Date) : List Char :=
  (if d.year < 0 then ['-'] else []) ++ Text.paddedDigits 4 d.year.natAbs
    ++ '-' :: Text.paddedDigits 2 d.month ++ '-' :: Text.paddedDigits 2 d.day

/-- The text of the date. -/
def text (d : Date) : String := String.ofList d.chars

end Date

end ColumnIndex
