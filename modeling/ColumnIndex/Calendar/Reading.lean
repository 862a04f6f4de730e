import ColumnIndex.Calendar.Pattern
import ColumnIndex.Calendar.Timestamp

/-!
# Reading dates by a pattern

A text is read item by item from its bytes. What the components say is collected in a `Reading`;
a later component of the same kind replaces an earlier one. Whether a reading is enough for a
date, a time of day or an instant is asked afterwards.

## Main definitions

* `Pattern.Reading` — what has been read.
* `Pattern.read?` — a text read by the items of a pattern, to its end.
* `Pattern.Reading.instant?`, `localInstant?`, `day?` — what a reading amounts to.
-/
namespace ColumnIndex.Pattern

open Calendar

/-- A text as its bytes. -/
abbrev Bytes := List UInt8

/-- The bytes of characters. -/
def bytesOf (cs : List Char) : Bytes := cs.flatMap String.utf8EncodeChar

/-- A year that was given by its first digits. The sign is kept apart for the sake of zero. -/
structure Century where
  negative : Bool
  magnitude : Nat

/-- What the components of a pattern have said. -/
structure Reading where
  year : Option Int := none
  century : Option Century := none
  lastTwo : Option Nat := none
  weekYear : Option Int := none
  weekCentury : Option Century := none
  weekLastTwo : Option Nat := none
  month : Option Nat := none
  day : Option Nat := none
  ordinal : Option Nat := none
  /-- Counted from Monday, which is 0. -/
  weekday : Option Nat := none
  isoWeek : Option Nat := none
  sundayWeek : Option Nat := none
  mondayWeek : Option Nat := none
  hour : Option Nat := none
  hourOfHalf : Option Nat := none
  afternoon : Option Bool := none
  minute : Option Nat := none
  second : Option Nat := none
  nanosecond : Option Nat := none
  offsetNegative : Bool := false
  offsetHour : Option Nat := none
  offsetMinute : Option Nat := none
  offsetSecond : Option Nat := none
  /-- Nanoseconds since the start of 1970. -/
  unixTime : Option Int := none

/-! ## Reading components -/

/-- Whether the byte is an ASCII digit. -/
def isDigitByte (b : UInt8) : Bool := 48 ≤ b && b ≤ 57

/-- The number that digits spell. -/
def numberOfBytes (digits : Bytes) : Nat := digits.foldl (fun n b => 10 * n + (b.toNat - 48)) 0

/-- The number at the start, with so many digits, and the rest. -/
def digits? (least most : Nat) (bs : Bytes) : Option (Nat × Bytes) :=
  let run := (bs.take most).takeWhile isDigitByte
  if run.length < least then none else some (numberOfBytes run, bs.drop run.length)

/-- The number at the start of a place of a given width, and the rest. Without padding one digit
is enough; blanks may take the place of all digits but the last. -/
def number? (padding : Padding) (least most : Nat) (bs : Bytes) : Option (Nat × Bytes) :=
  match padding with
  | .zero => digits? least most bs
  | .none => digits? 1 most bs
  | .space =>
    let blanks := ((bs.take (least - 1)).takeWhile (· = 32)).length
    digits? (least - blanks) (most - blanks) (bs.drop blanks)

/-- A sign at the start, if there is one: whether it is a minus, and the rest. -/
def sign? : Bytes → Option Bool × Bytes
  | 43 :: bs => (some false, bs)
  | 45 :: bs => (some true, bs)
  | bs => (none, bs)

/-- The byte with a Latin capital in lower case. -/
def lowerByte (b : UInt8) : UInt8 := if 65 ≤ b ∧ b ≤ 90 then b + 32 else b

/-- What follows the word, if the bytes start with it. -/
def dropWord? (caseSensitive : Bool) (word : String) (bs : Bytes) : Option Bytes :=
  let name := bytesOf word.toList
  let head := bs.take name.length
  if head = name ∨ (caseSensitive = false ∧ head.map lowerByte = name.map lowerByte) then
    some (bs.drop name.length)
  else none

/-- The first of the words that the bytes start with: its place in the list, and the rest. -/
def word? (caseSensitive : Bool) (words : List String) (bs : Bytes) : Option (Nat × Bytes) :=
  words.zipIdx.findSome? fun (word, place) =>
    (dropWord? caseSensitive word bs).map fun rest => (place, rest)

/-- The names of the months. -/
def monthNames : List String :=
  ["January", "February", "March", "April", "May", "June", "July", "August", "September",
    "October", "November", "December"]

/-- The names of the days of the week. -/
def weekdayNames : List String :=
  ["Monday", "Tuesday", "Wednesday", "Thursday", "Friday", "Saturday", "Sunday"]

/-- The first three letters of a name. -/
def shortName (name : String) : String := String.ofList (name.toList.take 3)

/-- The digit that stands for each day of the week, from Monday on. -/
def weekdayDigits (form : WeekdayForm) (oneIndexed : Bool) : List String :=
  let base := if oneIndexed then 1 else 0
  let first := if form = .fromSunday then 1 else 0
  (List.range 7).map fun day => toString ((day + first) % 7 + base)

/-- A number in the range, or nothing. -/
def within (least most n : Nat) : Option Nat := if least ≤ n ∧ n ≤ most then some n else none

/-- A year, or the first digits of one: its sign, its magnitude and the rest. With a sign, or
for a whole year, all digits must be there. -/
def yearDigits? (padding : Padding) (least most : Nat) (signMandatory : Bool) (bs : Bytes) :
    Option (Century × Bytes) :=
  match sign? bs with
  | (some negative, rest) =>
    (number? padding most most rest).map fun (n, rest) => (⟨negative, n⟩, rest)
  | (none, rest) =>
    if signMandatory then none
    else (number? padding least most rest).map fun (n, rest) => (⟨false, n⟩, rest)

/-- The year with the sign and the magnitude. -/
def Century.signed (c : Century) : Int := if c.negative then -(c.magnitude : Int) else c.magnitude

/-- The digits of a fraction of a second at the start, as nanoseconds, and the rest. Without a
count there are at most thirty-two, and those after the ninth are of no weight. -/
def fraction? (count : Option Nat) (bs : Bytes) : Option (Nat × Bytes) :=
  match count with
  | some count => (digits? count count bs).map fun (n, rest) => (n * 10 ^ (9 - count), rest)
  | none =>
    let run := (bs.take 32).takeWhile isDigitByte
    if run.isEmpty then none
    else
      let kept := run.take 9
      some (numberOfBytes kept * 10 ^ (9 - kept.length), bs.drop run.length)

/-- One component read at the start of the bytes. -/
def readComponent (r : Reading) (bs : Bytes) : Component → Option (Reading × Bytes)
  | .day padding => do
    let (n, rest) ← number? padding 2 2 bs
    pure ({ r with day := ← within 1 31 n }, rest)
  | .month padding .number _ => do
    let (n, rest) ← number? padding 2 2 bs
    pure ({ r with month := ← within 1 12 n }, rest)
  | .month _ .long caseSensitive => do
    let (place, rest) ← word? caseSensitive monthNames bs
    pure ({ r with month := some (place + 1) }, rest)
  | .month _ .short caseSensitive => do
    let (place, rest) ← word? caseSensitive (monthNames.map shortName) bs
    pure ({ r with month := some (place + 1) }, rest)
  | .ordinal padding => do
    let (n, rest) ← number? padding 3 3 bs
    pure ({ r with ordinal := ← within 1 366 n }, rest)
  | .weekday form oneIndexed caseSensitive => do
    let words := match form with
      | .long => weekdayNames
      | .short => weekdayNames.map shortName
      | form => weekdayDigits form oneIndexed
    let (place, rest) ← word? caseSensitive words bs
    pure ({ r with weekday := some place }, rest)
  | .weekNumber padding form => do
    let (n, rest) ← number? padding 2 2 bs
    match form with
    | .iso => pure ({ r with isoWeek := ← within 1 53 n }, rest)
    | .sunday => pure ({ r with sundayWeek := ← within 0 53 n }, rest)
    | .monday => pure ({ r with mondayWeek := ← within 0 53 n }, rest)
  | .year padding .full byWeeks signMandatory => do
    let (year, rest) ← yearDigits? padding 4 4 signMandatory bs
    pure (if byWeeks then { r with weekYear := some year.signed }
      else { r with year := some year.signed }, rest)
  | .year padding .century byWeeks signMandatory => do
    let (century, rest) ← yearDigits? padding 1 2 signMandatory bs
    pure (if byWeeks then { r with weekCentury := some century }
      else { r with century := some century }, rest)
  | .year padding .lastTwo byWeeks _ => do
    let (n, rest) ← number? padding 2 2 bs
    pure (if byWeeks then { r with weekLastTwo := some n } else { r with lastTwo := some n }, rest)
  | .hour padding twelve => do
    let (n, rest) ← number? padding 2 2 bs
    if twelve then pure ({ r with hourOfHalf := ← within 1 12 n }, rest)
    else pure ({ r with hour := ← within 0 23 n }, rest)
  | .minute padding => do
    let (n, rest) ← number? padding 2 2 bs
    pure ({ r with minute := ← within 0 59 n }, rest)
  | .period upper caseSensitive => do
    -- Only capitals can be insisted on.
    let (place, rest) ← word? (upper && caseSensitive) ["AM", "PM"] bs
    pure ({ r with afternoon := some (place = 1) }, rest)
  | .second padding => do
    let (n, rest) ← number? padding 2 2 bs
    pure ({ r with second := ← within 0 60 n }, rest)
  | .subsecond count => do
    let (n, rest) ← fraction? count bs
    pure ({ r with nanosecond := some n }, rest)
  | .offsetHour padding signMandatory => do
    let (sign, rest) := sign? bs
    let (n, rest) ← number? padding 2 2 rest
    if sign.isNone && signMandatory then none
    else
      pure ({ r with offsetNegative := sign.getD false, offsetHour := ← within 0 25 n }, rest)
  | .offsetMinute padding => do
    let (n, rest) ← number? padding 2 2 bs
    pure ({ r with offsetMinute := ← within 0 59 n }, rest)
  | .offsetSecond padding => do
    let (n, rest) ← number? padding 2 2 bs
    pure ({ r with offsetSecond := ← within 0 59 n }, rest)
  | .ignore count => if bs.length < count then none else some (r, bs.drop count)
  | .unixTimestamp precision signMandatory => do
    let (sign, rest) := sign? bs
    let most := match precision with
      | 0 => 14
      | 3 => 17
      | 6 => 20
      | _ => 23
    let (n, rest) ← digits? 1 most rest
    if sign.isNone && signMandatory then none
    else
      let nanos : Int := (n * 10 ^ (9 - precision) : Nat)
      let nanos := if sign = some true then -nanos else nanos
      if newYear (-9999) * 86400000000000 ≤ nanos ∧ nanos < newYear 10000 * 86400000000000 then
        pure ({ r with unixTime := some nanos }, rest)
      else none
  | .ending discards => if discards ∨ bs = [] then some (r, []) else none

/-- The items read one after the other at the start of the bytes. -/
def readItems (r : Reading) (bs : Bytes) : List Item → Option (Reading × Bytes)
  | [] => some (r, bs)
  | .literal text :: items =>
    let name := bytesOf text
    if name.isPrefixOf bs then readItems r (bs.drop name.length) items else none
  | .component component :: items => do
    let (r, rest) ← readComponent r bs component
    readItems r rest items

/-- What a text says when it is read by the items to its end. -/
def read? (items : List Item) (text : List Char) : Option Reading :=
  match readItems {} (bytesOf text) items with
  | some (r, []) => some r
  | _ => none

/-! ## What a reading amounts to -/

namespace Reading

/-- A year, or the one that its first and last two digits make. -/
def fullYear (year : Option Int) (century : Option Century) (lastTwo : Option Nat) :
    Option Int :=
  match year, century, lastTwo with
  | none, some century, some lastTwo =>
    some ({ century with magnitude := 100 * century.magnitude + lastTwo } : Century).signed
  | year, _, _ => year

/-- The day number of the day of the year, which is counted from 1. -/
def ordinalDay (year ordinal : Int) : Option Int :=
  if 1 ≤ ordinal ∧ ordinal ≤ daysInYear year then some (newYear year + (ordinal - 1)) else none

/-- The day number. A year needs its day, or a month and its day; a year of weeks needs the week
and the day of the week. -/
def day? (r : Reading) : Option Int :=
  let year := fullYear r.year r.century r.lastTwo
  let weekYear := fullYear r.weekYear r.weekCentury r.weekLastTwo
  match year, r.ordinal with
  | some year, some ordinal => ordinalDay year ordinal
  | _, _ =>
  match year, r.month, r.day with
  | some year, some month, some day => (Date.ofParts? year month day).map Date.dayNumber
  | _, _, _ =>
  match weekYear, r.isoWeek, r.weekday with
  | some year, some week, some weekday =>
    -- A week may reach into another year, but not into one of five digits.
    let day := firstMonday year + 7 * (week - 1) + weekday
    if week ≤ weeksInYear year ∧ newYear (-9999) ≤ day ∧ day < newYear 10000 then some day
    else none
  | _, _, _ =>
  -- The first day of the year counts from the first Monday or Sunday on or after it.
  let lead (year : Int) : Int :=
    if weekdayOf (newYear year) = 0 then 7 else weekdayOf (newYear year)
  match year, r.sundayWeek, r.weekday with
  | some year, some week, some weekday =>
    ordinalDay year (7 * week + ((weekday + 1) % 7 : Nat) - lead year + 1)
  | _, _, _ =>
  match year, r.mondayWeek, r.weekday with
  | some year, some week, some weekday => ordinalDay year (7 * week + weekday - lead year + 1)
  | _, _, _ => none

/-- The hour of the day. -/
def hour? (r : Reading) : Option Nat :=
  match r.hour, r.hourOfHalf, r.afternoon with
  | some hour, _, _ => some hour
  | none, some hour, some afternoon => some (hour % 12 + if afternoon then 12 else 0)
  | _, _, _ => none

/-- Nanoseconds since midnight. A part is of use only when the longer ones are there. A second
of 60 is read, but there is no such time of day. -/
def timeOfDay? (r : Reading) : Option Nat := do
  let hour ← r.hour?
  let time (minute second nanosecond : Nat) : Option Nat :=
    if second < 60 then
      some ((hour * 3600 + minute * 60 + second) * 1000000000 + nanosecond)
    else none
  match r.minute, r.second, r.nanosecond with
  | none, none, none => time 0 0 0
  | some minute, none, none => time minute 0 0
  | some minute, some second, none => time minute second 0
  | some minute, some second, some nanosecond => time minute second nanosecond
  | _, _, _ => none

/-- Seconds that the local clock is ahead of universal time. Seconds count only after minutes. -/
def offset? (r : Reading) : Option Int := do
  let hour ← r.offsetHour
  let below := match r.offsetMinute with
    | some minute => minute * 60 + r.offsetSecond.getD 0
    | none => 0
  let seconds : Int := (hour * 3600 + below : Nat)
  pure (if r.offsetNegative then -seconds else seconds)

/-- Nanoseconds since the epoch of a reading that has an offset, or that is an instant itself. A
fraction replaces that of an instant. -/
def instant? (r : Reading) : Option Int :=
  match r.unixTime with
  | some nanos =>
    match r.nanosecond with
    | some fraction => some (nanos / 1000000000 * 1000000000 + fraction)
    | none => some nanos
  | none => do
    let day ← r.day?
    let time ← r.timeOfDay?
    let offset ← r.offset?
    pure (day * 86400000000000 + time - offset * 1000000000)

/-- Nanoseconds since the epoch of a reading whose clock shows universal time. -/
def localInstant? (r : Reading) : Option Int := do
  let day ← r.day?
  let time ← r.timeOfDay?
  pure (day * 86400000000000 + time)

end Reading

end ColumnIndex.Pattern
