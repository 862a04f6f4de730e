import ColumnIndex.Calendar.Timestamp
import Mathlib.Data.Int.SuccPred
import Mathlib.Order.SuccPred.IntervalSucc
import Mathlib.Tactic.IntervalCases

/-!
# Counting days

The calendar goes from one day to the next: within a month, to the first day of the next month and
to the first day of the next year. The number of a date counts these steps from 1 January 1970,
forwards or backwards, so it respects leap years, centuries and dates before that day.

## Main definitions

* `Date.Next` — the day after a date.
* `Date.Days` — so many days later.
* `Date.IsDay` — the date is so many days after 1 January 1970, or before it.
* `Timestamp.IsInstant` — so many nanoseconds after the start of that day in universal time.

Main statements: `Date.isDay_iff` and `Timestamp.isInstant_iff`.
-/
namespace ColumnIndex

open Calendar

/-! ## Days of a year -/

namespace Calendar

theorem daysInMonth_pos (year : Int) {month : Nat} (h : 1 ≤ month ∧ month ≤ 12) :
    1 ≤ daysInMonth year month := by
  have hleap : 1 ≤ (if isLeapYear year then 29 else 28) := by
    split
    · decide
    · decide
  obtain ⟨hfirst, hlast⟩ := h
  interval_cases month
  case «2» => exact hleap
  all_goals simp [daysInMonth]

/-- The months together have as many days as the year. -/
theorem daysBeforeMonth_thirteen (year : Int) : daysBeforeMonth year 13 = daysInYear year := by
  simp only [daysBeforeMonth, daysInMonth, daysInYear]
  split
  · rfl
  · rfl

theorem daysBeforeMonth_mono (year : Int) : Monotone (daysBeforeMonth year) :=
  monotone_nat_of_le_succ fun _ => Nat.le_add_right _ _

theorem newYear_le {year year' : Int} (h : year ≤ year') : newYear year ≤ newYear year' := by
  simp only [newYear]
  omega

end Calendar

namespace Date

variable {d d' : Date}

/-- The day of the year lies between the days before the month and those before the next one. -/
theorem dayOfYear_range (d : Date) :
    daysBeforeMonth d.year d.month ≤ daysBeforeMonth d.year d.month + (d.day - 1) ∧
      daysBeforeMonth d.year d.month + (d.day - 1) < daysBeforeMonth d.year (d.month + 1) := by
  have hfirst := d.day_range.1
  have hlast : daysBeforeMonth d.year d.month + d.day ≤ daysBeforeMonth d.year (d.month + 1) :=
    Nat.add_le_add_left d.day_range.2 _
  omega

/-- A date lies between the first day of its year and that of the next one. -/
theorem dayNumber_range (d : Date) :
    newYear d.year ≤ d.dayNumber ∧ d.dayNumber < newYear (d.year + 1) := by
  have hfirst := d.day_range.1
  have hmonth := d.dayOfYear_range
  have hyear : daysBeforeMonth d.year (d.month + 1) ≤ daysInYear d.year := by
    rw [← daysBeforeMonth_thirteen]
    exact daysBeforeMonth_mono _ (Nat.succ_le_succ d.month_range.2)
  rw [dayNumber, newYear_succ]
  omega

/-- Years of four digits are less than four million days from the epoch. -/
theorem dayNumber_bound (d : Date) : -4400000 ≤ d.dayNumber ∧ d.dayNumber ≤ 3000000 := by
  have hyear := d.year_range
  have hday := d.dayNumber_range
  have hfirst : newYear (-9999) ≤ newYear d.year := newYear_le hyear.1
  have hlast : newYear (d.year + 1) ≤ newYear 10000 := newYear_le (by omega)
  have hfirstValue : newYear (-9999) = -4371587 := by decide
  have hlastValue : newYear 10000 = 2932897 := by decide
  omega

/-- Different dates have different numbers: the years follow each other without a gap, and so do the
months of a year. -/
theorem dayNumber_injective : Function.Injective dayNumber := by
  intro d d' h
  have hmono : Monotone newYear := fun _ _ => newYear_le
  have hyear : d.year = d'.year :=
    hmono.pairwise_disjoint_on_Ico_succ.eq
      (Set.not_disjoint_iff.2 ⟨d.dayNumber, d.dayNumber_range, h ▸ d'.dayNumber_range⟩)
  have hfirst := d.day_range.1
  have hfirst' := d'.day_range.1
  have hrange := d.dayOfYear_range
  have hrange' := d'.dayOfYear_range
  rw [dayNumber, dayNumber, hyear] at h
  rw [hyear] at hrange
  have hdays : daysBeforeMonth d'.year d.month + (d.day - 1)
      = daysBeforeMonth d'.year d'.month + (d'.day - 1) := by omega
  have hmonth : d.month = d'.month :=
    (daysBeforeMonth_mono d'.year).pairwise_disjoint_on_Ico_succ.eq
      (Set.not_disjoint_iff.2 ⟨_, hrange, hdays ▸ hrange'⟩)
  have hday : d.day = d'.day := by
    rw [hmonth] at hdays
    omega
  obtain ⟨year, month, day, _, _, _⟩ := d
  obtain ⟨year', month', day', _, _, _⟩ := d'
  obtain rfl : year = year' := hyear
  obtain rfl : month = month' := hmonth
  obtain rfl : day = day' := hday
  rfl

/-! ## From one day to the next -/

/-- The day after a date. -/
inductive Next (d d' : Date) : Prop
  | sameMonth (hyear : d'.year = d.year) (hmonth : d'.month = d.month) (hday : d'.day = d.day + 1)
  | nextMonth (hlast : d.day = daysInMonth d.year d.month) (hyear : d'.year = d.year)
      (hmonth : d'.month = d.month + 1) (hday : d'.day = 1)
  | nextYear (hlast : d.month = 12 ∧ d.day = 31) (hyear : d'.year = d.year + 1)
      (hmonth : d'.month = 1) (hday : d'.day = 1)

/-- The next day has the next number. -/
theorem Next.dayNumber_eq (h : Next d d') : d'.dayNumber = d.dayNumber + 1 := by
  unfold dayNumber
  cases h with
  | sameMonth hyear hmonth hday =>
    rw [hyear, hmonth, hday]
    omega
  | nextMonth hlast hyear hmonth hday =>
    rw [hyear, hmonth, hday, hlast, daysBeforeMonth]
    omega
  | nextYear hlast hyear hmonth hday =>
    have hdecember : daysBeforeMonth d.year 13 = daysBeforeMonth d.year 12 + 31 := rfl
    have hjanuary : daysBeforeMonth (d.year + 1) 1 = 0 := rfl
    rw [hyear, hmonth, hday, hlast.1, hlast.2, newYear_succ, ← daysBeforeMonth_thirteen,
      hdecember, hjanuary]
    omega

/-- A date with a later one has a next one. -/
theorem exists_next (h : d.dayNumber < d'.dayNumber) : ∃ e, Next d e := by
  have hyear := d.year_range
  have hmonth := d.month_range
  have hday := d.day_range
  by_cases hinside : d.day < daysInMonth d.year d.month
  · exact ⟨⟨d.year, d.month, d.day + 1, hyear, hmonth, by omega⟩, .sameMonth rfl rfl rfl⟩
  have hlast : d.day = daysInMonth d.year d.month := by omega
  by_cases hbefore : d.month < 12
  · have hnext : 1 ≤ d.month + 1 ∧ d.month + 1 ≤ 12 := by omega
    exact ⟨⟨d.year, d.month + 1, 1, hyear, hnext, le_rfl, daysInMonth_pos d.year hnext⟩,
      .nextMonth hlast rfl rfl rfl⟩
  have hdecember : d.month = 12 := by omega
  have hend : d.day = 31 := by
    rw [hlast, hdecember]
    rfl
  have hnumber : d.dayNumber + 1 = newYear (d.year + 1) := by
    rw [newYear_succ, ← daysBeforeMonth_thirteen, dayNumber, hdecember, hend]
    have hsum : daysBeforeMonth d.year 13 = daysBeforeMonth d.year 12 + 31 := rfl
    rw [hsum]
    omega
  have hless : d.year < 9999 := by
    by_contra hnot
    have hmost := d'.dayNumber_range.2
    have hyear' := d'.year_range
    have : newYear (d'.year + 1) ≤ newYear (d.year + 1) := newYear_le (by omega)
    omega
  exact ⟨⟨d.year + 1, 1, 1, by omega, by decide, Nat.le_refl 1, Nat.le_add_left 1 30⟩,
    .nextYear ⟨hdecember, hend⟩ rfl rfl rfl⟩

/-- The second date is so many days after the first. -/
inductive Days : Nat → Date → Date → Prop
  | refl (d : Date) : Days 0 d d
  | step {n : Nat} {d e d' : Date} (hnext : Next d e) (hrest : Days n e d') : Days (n + 1) d d'

theorem Days.dayNumber_eq {n : Nat} (h : Days n d d') : d'.dayNumber = d.dayNumber + n := by
  induction h with
  | refl => simp
  | step hnext _ ih =>
    rw [ih, hnext.dayNumber_eq]
    omega

/-- Every later date is reached day by day. -/
theorem exists_days (h : d.dayNumber ≤ d'.dayNumber) : ∃ n, Days n d d' := by
  generalize hn : (d'.dayNumber - d.dayNumber).toNat = n
  induction n generalizing d with
  | zero =>
    obtain rfl : d = d' := dayNumber_injective (by omega)
    exact ⟨0, .refl d⟩
  | succ n ih =>
    obtain ⟨e, hnext⟩ := exists_next (show d.dayNumber < d'.dayNumber by omega)
    have hnumber := hnext.dayNumber_eq
    obtain ⟨k, hdays⟩ := ih (d := e) (by omega) (by omega)
    exact ⟨k + 1, .step hnext hdays⟩

/-! ## Days from the epoch -/

/-- The first of January 1970. -/
def epoch : Date := (ofParts? 1970 1 1).get (by decide)

/-- The date is so many days after the epoch, or before it if the number is negative. -/
inductive IsDay (d : Date) : Int → Prop
  | after {n : Nat} (h : Days n epoch d) : IsDay d n
  | before {n : Nat} (h : Days n d epoch) : IsDay d (-n)

theorem dayNumber_epoch : epoch.dayNumber = 0 := by decide

/-- The number of a date counts the days from the epoch. -/
theorem isDay_iff {n : Int} : d.IsDay n ↔ d.dayNumber = n := by
  have hepoch := dayNumber_epoch
  constructor
  · intro h
    cases h with
    | after h =>
      rw [h.dayNumber_eq]
      omega
    | before h =>
      have hnumber := h.dayNumber_eq
      omega
  · rintro rfl
    rcases le_total epoch.dayNumber d.dayNumber with hle | hle
    · obtain ⟨n, h⟩ := exists_days hle
      have hnumber : d.dayNumber = n := by
        rw [h.dayNumber_eq]
        omega
      rw [hnumber]
      exact .after h
    · obtain ⟨n, h⟩ := exists_days hle
      have hnumber : d.dayNumber = -n := by
        have := h.dayNumber_eq
        omega
      rw [hnumber]
      exact .before h

/-- The start of a day in universal time. -/
def midnight (d : Date) : Timestamp := (Timestamp.ofParts? d 0 0 0 0 0).get rfl

end Date

/-! ## Instants -/

namespace Timestamp

/-- The seconds of the local clock since the local midnight. -/
def secondOfDay (t : Timestamp) : Nat := t.hour * 3600 + t.minute * 60 + t.second

/-- The timestamp is so many nanoseconds after the start of 1970 in universal time: the local clock
is ahead of universal time by the offset. -/
def IsInstant (t : Timestamp) (n : Int) : Prop :=
  ∃ day, t.date.IsDay day ∧
    n = (day * 86400 + t.secondOfDay - t.offset) * 10 ^ 9 + t.nanosecond

theorem isInstant_iff {t : Timestamp} {n : Int} : t.IsInstant n ↔ t.instant = n := by
  have hinstant : t.instant
      = (t.date.dayNumber * 86400 + t.secondOfDay - t.offset) * 10 ^ 9 + t.nanosecond := by
    unfold instant secondOfDay
    push_cast
    omega
  simp only [IsInstant, Date.isDay_iff, exists_eq_left', hinstant]
  exact eq_comm

/-- Each timestamp is one instant. -/
theorem existsUnique_isInstant (t : Timestamp) : ∃! n, t.IsInstant n :=
  ⟨t.instant, isInstant_iff.2 rfl, fun _ h => (isInstant_iff.1 h).symm⟩

/-- An instant of a year of four digits fits sixty-four bits when it is counted in milliseconds. -/
theorem instant_range (t : Timestamp) :
    -2 ^ 63 * 10 ^ 6 ≤ t.instant ∧ t.instant < 2 ^ 63 * 10 ^ 6 := by
  have hday := t.date.dayNumber_bound
  have hhour := t.hour_lt
  have hminute := t.minute_lt
  have hsecond := t.second_lt
  have hnanosecond := t.nanosecond_lt
  have hoffset := t.offset_range
  unfold instant
  omega

end Timestamp

end ColumnIndex
