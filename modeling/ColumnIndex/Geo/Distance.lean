import ColumnIndex.Error
import ColumnIndex.Number.Binary.Arithmetic
import ColumnIndex.Number.Binary.Layout
import ColumnIndex.Number.Binary.Reader
import ColumnIndex.Text.Blank
import ColumnIndex.Text.Lowercase

/-!
# Distances

A distance is a number with a unit of length. In a text the unit has a symbol or a long name, in
any case; a number alone is meters.

## Main definitions

* `DistanceUnit` — the units.
* `Distance` — the distances.
* `Distance.meters` — a distance in meters.
* `Distance.parse` — the distance of a text.
-/
namespace ColumnIndex

/-- A unit of length. -/
inductive DistanceUnit
  | meters
  | kilometers
  | miles
  | yards
  | feet
  deriving DecidableEq

namespace DistanceUnit

/-- All units. -/
def all : List DistanceUnit := [meters, kilometers, miles, yards, feet]

/-- The symbol of a unit. -/
def symbol : DistanceUnit → String
  | meters => "m"
  | kilometers => "km"
  | miles => "mi"
  | yards => "yd"
  | feet => "ft"

/-- The long name of a unit. -/
def longName : DistanceUnit → String
  | meters => "meters"
  | kilometers => "kilometers"
  | miles => "miles"
  | yards => "yards"
  | feet => "feet"

/-- How many meters a unit has. -/
def inMeters : DistanceUnit → Double
  | meters => .ofInt 1
  | kilometers => .ofInt 1000
  | miles => .ofDecimal false 1609344 (-3)
  | yards => .ofDecimal false 9144 (-4)
  | feet => .ofDecimal false 3048 (-4)

/-- The unit of a symbol or a long name. -/
def ofName? (name : String) : Option DistanceUnit :=
  all.find? fun unit => unit.symbol == name || unit.longName == name

end DistanceUnit

/-- A number with a unit of length. -/
structure Distance where
  value : Double
  unit : DistanceUnit

/-- A text that denotes no distance. -/
structure BadDistance where
  text : String

/-- The wording of the fault. -/
def BadDistance.message (fault : BadDistance) : String := "invalid distance '" ++ fault.text ++ "'"

instance : Reported BadDistance where
  report fault := ⟨.schemaValidation, .condition, fault.message⟩

namespace Distance

/-- The distance in meters. -/
def meters (d : Distance) : Double := d.value.mul d.unit.inMeters

/-- The text of a distance: its number and the symbol of its unit. -/
def text (d : Distance) : String := d.value.plainText ++ d.unit.symbol

/-- Whether a character is a letter of the ASCII range. -/
def isUnitLetter (c : Char) : Bool := c.isAlpha

/-- The unit that characters name; no characters are meters. -/
def unit? (cs : List Char) : Option DistanceUnit :=
  if cs.isEmpty then some .meters
  else DistanceUnit.ofName? (String.ofList (Text.trimChars cs))

/-- The distance that characters denote: a finite number that is not negative, up to the first
letter, and a unit. -/
def parse? (cs : List Char) : Option Distance := do
  let folded := (Text.trimChars cs).map Char.toLower
  let value ← BinaryFloat.parse? (Text.trimChars (folded.takeWhile (!isUnitLetter ·)))
  let unit ← unit? (folded.dropWhile (!isUnitLetter ·))
  if value.isFinite && !value.lt (.zero false) then some ⟨value, unit⟩ else none

/-- The distance of a text. -/
def parse (text : String) : Except BadDistance Distance :=
  match parse? text.toList with
  | some d => .ok d
  | none => .error ⟨text⟩

end Distance

end ColumnIndex
