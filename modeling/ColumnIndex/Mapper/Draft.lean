import ColumnIndex.Calendar.Pattern.Parser
import ColumnIndex.Mapper

/-!
# Drafts of mappers

A draft says what a mapper is to be. Options that are not set have defaults. Not every draft makes
sense; `Mapper.Draft.build` finds the first thing that is wrong with it.

## Main definitions

* `Mapper.Draft` — the drafts.
* `Mapper.Draft.same` — equality of drafts.
* `Mapper.Draft.build` — the mapper of a draft.
* `Mapper.DraftFault` — what may be wrong with a draft.
-/
namespace ColumnIndex.Mapper

/-! ## Drafts -/

/-- What a mapper is to read its cells as, with the options that are set. -/
inductive Draft.Kind
  | integer
  | long
  | float
  | double
  | bigDecimal (wholeDigits fractionDigits : Option UInt32)
  | string (caseSensitive : Option Bool)
  | text (analyzer : Option String)
  | boolean
  | date (pattern : Option String)
  | blob
  | inet
  | uuid
  | geoPoint (latitude longitude : Option String) (levels : Option UInt8)
  deriving DecidableEq

/-- What a mapper is to be: the options that all mappers have, as far as they are set, and the
kind. -/
structure Draft where
  indexed : Option Bool := none
  sorted : Option Bool := none
  column : Option String := none
  boost : Option Single := none
  kind : Draft.Kind

/-- The kind without its options. -/
def Draft.Kind.tag : Draft.Kind → MapperTag
  | integer => .integer
  | long => .long
  | float => .float
  | double => .double
  | bigDecimal .. => .bigDecimal
  | string _ => .string
  | text _ => .text
  | boolean => .boolean
  | date _ => .date
  | blob => .blob
  | inet => .inet
  | uuid => .uuid
  | geoPoint .. => .geoPoint

/-- Whether two boosts are both not set, or set and equal. -/
def sameBoost : Option Single → Option Single → Bool
  | none, none => true
  | some x, some y => x.same y
  | _, _ => false

/-- Whether two drafts are equal, boosts as numbers. -/
def Draft.same (a b : Draft) : Bool :=
  a.indexed == b.indexed && a.sorted == b.sorted && a.column == b.column
    && sameBoost a.boost b.boost && a.kind == b.kind

/-! ## Faults -/

/-- What may be wrong with the options of a mapper. -/
inductive OptionFault
  | blankColumn
  | badBoost (boost : Single)
  | notSortable (tag : MapperTag)
  | badDigits (name : String) (found : Nat)
  | unknownAnalyzer (name : String)
  | badPattern (pattern : String) (fault : Pattern.Fault)
  | noLatitude
  | noLongitude
  | badLevels (found : Nat)

/-- The greatest limit of digits before or after the point. -/
def maxDigits : Nat := 1000

/-- The greatest length of a geohash. -/
def maxLevels : Nat := 12

/-- The wording of a fault of the options. -/
def OptionFault.message : OptionFault → String
  | blankColumn => "column must not be empty"
  | badBoost boost => "boost must be positive and finite, found " ++ boost.plainText
  | notSortable tag => "sorting is not supported by '" ++ tag.name ++ "' mappers"
  | badDigits name found =>
    name ++ " must be in 1..=" ++ Text.intText maxDigits ++ ", found " ++ Text.intText found
  | unknownAnalyzer name => "unknown analyzer '" ++ name ++ "'"
  | badPattern pattern fault => "invalid date pattern '" ++ pattern ++ "': " ++ fault.message
  | noLatitude => "latitude column is required"
  | noLongitude => "longitude column is required"
  | badLevels found =>
    "max_levels must be in 1..=" ++ Text.intText maxLevels ++ ", found " ++ Text.intText found

/-- What may be wrong with the draft of a mapper. -/
inductive DraftFault
  | blankField
  | options (field : String) (fault : OptionFault)

instance : Reported DraftFault where
  report
    | .blankField => ⟨.schemaValidation, .schema, "mapper field name must not be empty"⟩
    | .options field fault =>
      ⟨.schemaValidation, .mapper, "invalid mapper '" ++ field ++ "': " ++ fault.message⟩

/-! ## Building -/

/-- Whether a boost is a positive number. -/
def isBoost (x : Single) : Bool := x.isFinite && BinaryFloat.lt (.zero false) x

/-- The form of texts of dates where a draft names none. -/
def defaultPattern : String :=
  "[year]/[month]/[day] [hour]:[minute]:[second].[subsecond digits:3] "
    ++ "[offset_hour sign:mandatory][offset_minute]"

/-- A limit of digits; one that is not set is thirty-two. -/
def digitLimit (name : String) (digits : Option UInt32) : Except OptionFault UInt32 :=
  let n := digits.getD 32
  if 1 ≤ n.toNat ∧ n.toNat ≤ maxDigits then .ok n else .error (.badDigits name n.toNat)

/-- The kind of a mapper, with the defaults of its options. -/
def Draft.Kind.build : Draft.Kind → Except OptionFault MapperKind
  | integer => .ok .integer
  | long => .ok .long
  | float => .ok .float
  | double => .ok .double
  | bigDecimal whole fraction => do
    let whole ← digitLimit "integer_digits" whole
    let fraction ← digitLimit "decimal_digits" fraction
    pure (.bigDecimal whole fraction)
  | string caseSensitive => .ok (.string (caseSensitive.getD true))
  | text none => .ok (.text none)
  | text (some name) =>
    match Analyzer.ofName? name with
    | some analyzer => .ok (.text (some analyzer))
    | none => .error (.unknownAnalyzer name)
  | boolean => .ok .boolean
  | date pattern =>
    let pattern := pattern.getD defaultPattern
    match Pattern.parse pattern with
    | .ok _ => .ok (.date pattern)
    | .error fault => .error (.badPattern pattern fault)
  | blob => .ok .blob
  | inet => .ok .inet
  | uuid => .ok .uuid
  | geoPoint latitude longitude levels =>
    let latitude := latitude.getD ""
    let longitude := longitude.getD ""
    let levels := levels.getD 11
    if Text.isBlankText latitude then .error .noLatitude
    else if Text.isBlankText longitude then .error .noLongitude
    else if 1 ≤ levels.toNat ∧ levels.toNat ≤ maxLevels then
      .ok (.geoPoint latitude longitude levels)
    else .error (.badLevels levels.toNat)

/-- The mapper of a draft for a field whose name is not blank. -/
def Draft.buildOptions (d : Draft) (field : String) : Except OptionFault Mapper :=
  let column := d.column.getD field
  let sorted := d.sorted.getD false
  let boost := d.boost.getD defaultBoost
  if Text.isBlankText column then .error .blankColumn
  else if !isBoost boost then .error (.badBoost boost)
  else if sorted && !d.kind.tag.supportsSorting then .error (.notSortable d.kind.tag)
  else do
    let kind ← d.kind.build
    pure ⟨field, column, d.indexed.getD true, sorted, boost, kind⟩

/-- The mapper of a draft for a field. -/
def Draft.build (d : Draft) (field : String) : Except DraftFault Mapper :=
  if Text.isBlankText field then .error .blankField
  else (d.buildOptions field).mapError (.options field)

end ColumnIndex.Mapper
