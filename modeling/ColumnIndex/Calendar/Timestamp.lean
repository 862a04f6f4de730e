import ColumnIndex.Calendar.Date

/-!
# Timestamps

A timestamp is a local date and time, to the nanosecond, with the offset of the local clock from
universal time. Two timestamps are the same instant when their distances from the epoch are.

## Main definitions

* `Timestamp.instant` — nanoseconds since the start of 1970 in universal time.
* `Timestamp.text` — the internet form, or the long form where that has no place for a part.
* `Timestamp.longText` — the form with all parts.
-/
namespace ColumnIndex

/-- A local date and time, and the seconds that the local clock is ahead of universal time. -/
structure Timestamp where
  date : Date
  hour : Nat
  minute : Nat
  second : Nat
  nanosecond : Nat
  offset : Int
  hour_lt : hour < 24
  minute_lt : minute < 60
  second_lt : second < 60
  nanosecond_lt : nanosecond < 1000000000
  offset_range : -93599 ≤ offset ∧ offset ≤ 93599
  deriving DecidableEq

namespace Timestamp

/-- The timestamp with the parts, if all are in range. -/
def ofParts? (date : Date) (hour minute second nanosecond : Nat) (offset : Int) :
    Option Timestamp :=
  if h : hour < 24 ∧ minute < 60 ∧ second < 60 ∧ nanosecond < 1000000000 ∧
      (-93599 ≤ offset ∧ offset ≤ 93599) then
    some ⟨date, hour, minute, second, nanosecond, offset, h.1, h.2.1, h.2.2.1, h.2.2.2.1,
      h.2.2.2.2⟩
  else none

/-- Nanoseconds since the start of 1970 in universal time. -/
def instant (t : Timestamp) : Int :=
  ((t.date.dayNumber * 86400 + t.hour * 3600 + t.minute * 60 + t.second - t.offset)
    * 1000000000) + t.nanosecond

/-- The fraction digits of the second without trailing zeros. -/
def fractionChars (t : Timestamp) : List Char :=
  ((Text.paddedDigits 9 t.nanosecond).reverse.dropWhile (· = '0')).reverse

/-- The sign of the offset. -/
def offsetSign (t : Timestamp) : Char := if t.offset < 0 then '-' else '+'

/-- Whether the internet form has a place for each part: a year of four digits without a sign,
and an offset of less than a day in whole minutes. -/
def hasInternetForm (t : Timestamp) : Bool :=
  0 ≤ t.date.year && t.offset.natAbs < 86400 && t.offset.natAbs % 60 == 0

/-- The internet form: date and time around a T, and the offset, or Z for none. -/
def internetChars (t : Timestamp) : List Char :=
  let fraction := t.fractionChars
  let zone :=
    if t.offset = 0 then ['Z']
    else t.offsetSign :: Text.paddedDigits 2 (t.offset.natAbs / 3600)
      ++ ':' :: Text.paddedDigits 2 (t.offset.natAbs / 60 % 60)
  t.date.chars ++ 'T' :: Text.paddedDigits 2 t.hour ++ ':' :: Text.paddedDigits 2 t.minute
    ++ ':' :: Text.paddedDigits 2 t.second
    ++ (if fraction.isEmpty then [] else '.' :: fraction) ++ zone

/-- The long form: blanks between the parts, the hour as short as it is, a fraction of at least
one digit and an offset with seconds. -/
def longChars (t : Timestamp) : List Char :=
  let fraction := t.fractionChars
  t.date.chars ++ ' ' :: Text.digitsOf t.hour ++ ':' :: Text.paddedDigits 2 t.minute
    ++ ':' :: Text.paddedDigits 2 t.second
    ++ '.' :: (if fraction.isEmpty then ['0'] else fraction)
    ++ ' ' :: t.offsetSign :: Text.paddedDigits 2 (t.offset.natAbs / 3600)
    ++ ':' :: Text.paddedDigits 2 (t.offset.natAbs / 60 % 60)
    ++ ':' :: Text.paddedDigits 2 (t.offset.natAbs % 60)

/-- The text of the long form. -/
def longText (t : Timestamp) : String := String.ofList t.longChars

/-- The text of a timestamp. -/
def text (t : Timestamp) : String :=
  String.ofList (if t.hasInternetForm then t.internetChars else t.longChars)

end Timestamp

end ColumnIndex
