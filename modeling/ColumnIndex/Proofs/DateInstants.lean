import ColumnIndex.Proofs.Calendar.Days
import ColumnIndex.Proofs.DateLiterals
import Mathlib.Data.Rat.Floor

/-!
# Dates as milliseconds

A mapper of dates gives a timestamp the milliseconds of its instant, rounded down, also before 1970
and whatever the offset of its clock. So the same instant has one payload, a later one never a
smaller payload, and a date has the payload of its midnight in universal time.

## Main definitions

* `Mapper.AnswersMillis` — the payload of a value is the number of milliseconds.
* `Mapper.KeepsInstants` — payloads follow instants.

Main statement: `Mapper.base_temporal_millis`.
-/
namespace ColumnIndex

/-! ## Milliseconds of an instant -/

/-- Whole milliseconds are nanoseconds rounded down. -/
theorem millisOfNanos_eq_floor (n : Int) : millisOfNanos n = ⌊(n / 10 ^ 6 : ℚ)⌋ := by
  have h := Rat.floor_intCast_div_natCast n 1000000
  norm_num at h
  norm_num
  exact h.symm

theorem millisOfNanos_le {n n' : Int} (h : n ≤ n') : millisOfNanos n ≤ millisOfNanos n' :=
  Int.ediv_le_ediv (by decide) h

/-- Midnight in universal time is so many whole days from the epoch. -/
theorem Date.instant_midnight (d : Date) : d.midnight.instant = d.dayNumber * 86400000000000 := by
  have hparts : d.midnight.instant
      = (d.dayNumber * 86400 + (0 : Nat) * 3600 + (0 : Nat) * 60 + (0 : Nat) - 0) * 1000000000
        + (0 : Nat) := rfl
  rw [hparts]
  omega

theorem Date.millisOfNanos_midnight (d : Date) :
    millisOfNanos d.midnight.instant = millisOfDay d.dayNumber := by
  rw [d.instant_midnight, millisOfNanos, millisOfDay]
  omega

namespace Mapper

/-- The payload of the value is the number of milliseconds. -/
def AnswersMillis (m : Mapper) (column : String) (v : Value) (millis : Int) : Prop :=
  ∃ base : Int64, (m.base column v).result = .ok (some (.long base)) ∧ base.toInt = millis

/-- The payloads of timestamps and dates follow their instants. -/
structure KeepsInstants (m : Mapper) (column : String) : Prop where
  /-- The payload of a timestamp is its instant in milliseconds, rounded down. -/
  rounded {t : Timestamp} {n : Int} (h : t.IsInstant n) :
    m.AnswersMillis column (.timestamp t) ⌊(n / 10 ^ 6 : ℚ)⌋
  /-- The offset that an instant is written with does not matter. -/
  same {t t' : Timestamp} {n : Int} (h : t.IsInstant n) (h' : t'.IsInstant n) :
    (m.base column (.timestamp t)).result = (m.base column (.timestamp t')).result
  /-- What is earlier never has the larger payload. -/
  ordered {t t' : Timestamp} {n n' : Int} (h : t.IsInstant n) (h' : t'.IsInstant n')
      (hle : n ≤ n') :
    ∃ millis millis', m.AnswersMillis column (.timestamp t) millis ∧
      m.AnswersMillis column (.timestamp t') millis' ∧ millis ≤ millis'
  midnight (d : Date) :
    (m.base column (.date d)).result = (m.base column (.timestamp d.midnight)).result
  /-- One day is as long as any other. -/
  next {d d' : Date} (h : d.Next d') :
    ∃ millis, m.AnswersMillis column (.date d) millis ∧
      m.AnswersMillis column (.date d') (millis + 86400000)

variable {m : Mapper} {pattern : String}

/-- The payload of a timestamp does not overflow. -/
theorem answersMillis_timestamp (hm : m.kind = .date pattern) (column : String) (t : Timestamp) :
    m.AnswersMillis column (.timestamp t) (millisOfNanos t.instant) := by
  have hrange := t.instant_range
  refine ⟨_, base_date_of_millis hm column rfl rfl, ?_⟩
  apply Int64.toInt_ofInt_of_le
  · unfold millisOfNanos
    omega
  · unfold millisOfNanos
    omega

theorem base_date_midnight (hm : m.kind = .date pattern) (column : String) (d : Date) :
    (m.base column (.date d)).result = (m.base column (.timestamp d.midnight)).result := by
  have hmillis : (Value.timestamp d.midnight).toMillis? pattern
      = some (millisOfDay d.dayNumber) := congrArg some d.millisOfNanos_midnight
  rw [base_date_of_millis hm column rfl hmillis,
    base_date_of_millis (v := .date d) hm column rfl rfl]

/-- The payload of a date is its number of days in milliseconds. -/
theorem answersMillis_date (hm : m.kind = .date pattern) (column : String) (d : Date) :
    m.AnswersMillis column (.date d) (millisOfDay d.dayNumber) := by
  obtain ⟨base, hbase, hmillis⟩ := answersMillis_timestamp hm column d.midnight
  rw [d.millisOfNanos_midnight] at hmillis
  exact ⟨base, (base_date_midnight hm column d).trans hbase, hmillis⟩

/-- Each timestamp is one instant, and a mapper of dates keeps instants to the millisecond: its
payload is the instant rounded down, a date is its midnight in universal time, and from one day to
the next there are always as many milliseconds. -/
theorem base_temporal_millis (hm : m.kind = .date pattern) (column : String) :
    (∀ t : Timestamp, ∃! n, t.IsInstant n) ∧ m.KeepsInstants column := by
  have htimestamp := answersMillis_timestamp hm column
  refine ⟨Timestamp.existsUnique_isInstant, ⟨?_, ?_, ?_, base_date_midnight hm column, ?_⟩⟩
  · intro t n h
    rw [Timestamp.isInstant_iff] at h
    rw [← millisOfNanos_eq_floor, ← h]
    exact htimestamp t
  · intro t t' n h h'
    rw [Timestamp.isInstant_iff] at h h'
    have hmillis : (Value.timestamp t).toMillis? pattern = some (millisOfNanos n) :=
      congrArg (some ∘ millisOfNanos) h
    have hmillis' : (Value.timestamp t').toMillis? pattern = some (millisOfNanos n) :=
      congrArg (some ∘ millisOfNanos) h'
    rw [base_date_of_millis hm column rfl hmillis, base_date_of_millis hm column rfl hmillis']
  · intro t t' n n' h h' hle
    rw [Timestamp.isInstant_iff] at h h'
    rw [← h, ← h'] at hle
    exact ⟨_, _, htimestamp t, htimestamp t', millisOfNanos_le hle⟩
  · intro d d' h
    refine ⟨_, answersMillis_date hm column d, ?_⟩
    have hnext : millisOfDay d'.dayNumber = millisOfDay d.dayNumber + 86400000 := by
      unfold millisOfDay
      rw [h.dayNumber_eq]
      omega
    rw [← hnext]
    exact answersMillis_date hm column d'

/-- The last nanosecond before 1970, on a clock that is an hour ahead. -/
def sampleEve : Timestamp := (Timestamp.ofParts? Date.epoch 0 59 59 999999999 3600).get rfl

/-- A part of a millisecond before 1970 counts as a whole one, and in 1900 the first of March comes
after the twenty-eighth of February. -/
theorem base_temporal_millis_released :
    sampleReleased.kind = .date defaultPattern ∧
      sampleEve.IsInstant (-1) ∧
      sampleReleased.AnswersMillis "released" (.timestamp sampleEve) (-1) ∧
      ∃ millis,
        sampleReleased.AnswersMillis "released"
          (.date ⟨1900, 2, 28, by decide, by decide, by decide⟩) millis ∧
        sampleReleased.AnswersMillis "released"
          (.date ⟨1900, 3, 1, by decide, by decide, by decide⟩) (millis + 86400000) := by
  have hkeeps := (base_temporal_millis (m := sampleReleased) rfl "released").2
  have heve : sampleEve.IsInstant (-1) := Timestamp.isInstant_iff.2 (by decide)
  have hmillis := hkeeps.rounded heve
  have hfloor : ⌊(((-1 : Int) : ℚ) / 10 ^ 6)⌋ = -1 := by
    rw [← millisOfNanos_eq_floor]
    decide
  rw [hfloor] at hmillis
  refine ⟨rfl, heve, hmillis, hkeeps.next (.nextMonth ?_ rfl rfl rfl)⟩
  decide

end Mapper

end ColumnIndex
