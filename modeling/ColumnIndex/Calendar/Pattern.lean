/-!
# Date patterns

A date pattern is text with components in brackets, such as `[year]-[month]-[day]`. A component
has a name and modifiers of the form `key:value`; names, keys and values are read in any case.
Two opening brackets in a row stand for one bracket of the text.

Optional items, `[optional [...]]`, and choices, `[first [...] [...]]`, hold descriptions in
brackets of their own. They have a form, but dates are not read by them.

## Main definitions

* `Pattern.Item`, `Pattern.Component` — what a pattern is made of.
* `Pattern.Fault` — what may be wrong with a pattern text, and `Fault.message`, its wording.
-/
namespace ColumnIndex.Pattern

/-- How a number shorter than its place is filled up. -/
inductive Padding
  | zero
  | space
  | none
  deriving DecidableEq

/-- How a month is given. -/
inductive MonthForm
  | number
  | long
  | short
  deriving DecidableEq

/-- How a day of the week is given: by name, or counted from Sunday or Monday. -/
inductive WeekdayForm
  | long
  | short
  | fromSunday
  | fromMonday
  deriving DecidableEq

/-- How weeks are counted: from the week of the first Thursday, the first Sunday or the first
Monday. -/
inductive WeekForm
  | iso
  | sunday
  | monday
  deriving DecidableEq

/-- Which digits of a year are given. -/
inductive YearForm
  | full
  | century
  | lastTwo
  deriving DecidableEq

/-- A part of a date or time, and how it is given. -/
inductive Component
  | day (padding : Padding)
  | month (padding : Padding) (form : MonthForm) (caseSensitive : Bool)
  | ordinal (padding : Padding)
  | weekday (form : WeekdayForm) (oneIndexed caseSensitive : Bool)
  | weekNumber (padding : Padding) (form : WeekForm)
  | year (padding : Padding) (form : YearForm) (byWeeks signMandatory : Bool)
  | hour (padding : Padding) (twelve : Bool)
  | minute (padding : Padding)
  | period (upper caseSensitive : Bool)
  | second (padding : Padding)
  /-- With a fixed count of digits, or with one or more. -/
  | subsecond (digits : Option Nat)
  | offsetHour (padding : Padding) (signMandatory : Bool)
  | offsetMinute (padding : Padding)
  | offsetSecond (padding : Padding)
  /-- So many bytes of any kind. -/
  | ignore (count : Nat)
  /-- Counted in units of which so many make a second, as a power of ten. -/
  | unixTimestamp (precision : Nat) (signMandatory : Bool)
  /-- Nothing may follow, unless it is to be discarded. -/
  | ending (discards : Bool)
  deriving DecidableEq

/-- What a pattern is made of. -/
inductive Item
  | literal (text : List Char)
  | component (component : Component)
  deriving DecidableEq

/-- What may be wrong with a pattern, with the byte where it is. -/
inductive Fault
  | unclosedBracket (index : Nat)
  | unknownComponent (name : String) (index : Nat)
  | badModifier (text : String) (index : Nat)
  | missingName (index : Nat)
  | missingModifier (name : String) (index : Nat)
  /-- A nested description follows something else without a blank. -/
  | missingBlank (index : Nat)
  /-- An optional item is without a description. -/
  | missingDescription (index : Nat)
  /-- An optional item has more than one description. -/
  | severalDescriptions (index : Nat)
  /-- A component of another kind has a description. -/
  | strayDescription (index : Nat)
  /-- Dates are not read by optional items. -/
  | optionalItem (index : Nat)
  /-- Dates are not read by choices. -/
  | firstItem (index : Nat)
  deriving DecidableEq

/-- The byte where the fault is. -/
def Fault.index : Fault → Nat
  | unclosedBracket index | unknownComponent _ index | badModifier _ index | missingName index
  | missingModifier _ index | missingBlank index | missingDescription index
  | severalDescriptions index | strayDescription index | optionalItem index
  | firstItem index => index

/-- What the fault is, without its place. -/
def Fault.cause : Fault → String
  | unclosedBracket _ => "unclosed opening bracket"
  | unknownComponent name _ => s!"invalid component name `{name}`"
  | badModifier text _ => s!"invalid modifier `{text}`"
  | missingName _ => "missing component name"
  | missingModifier name _ => s!"missing required modifier `{name}` for component"
  | missingBlank _ => "expected whitespace before nested format description"
  | missingDescription _ => "expected nested format description"
  | severalDescriptions _ =>
    "more than one nested format description is not supported in `optional` components"
  | strayDescription _ =>
    "nested format descriptions is not supported in on this component"
  | optionalItem _ => "optional item is not supported in runtime-parsed format descriptions"
  | firstItem _ => "'first' item is not supported in runtime-parsed format descriptions"

/-- The wording of a fault. -/
def Fault.message (fault : Fault) : String := s!"{fault.cause} at byte index {fault.index}"

end ColumnIndex.Pattern
