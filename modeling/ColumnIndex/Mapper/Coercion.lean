import ColumnIndex.Calendar.Pattern.Parser
import ColumnIndex.Calendar.Reading
import ColumnIndex.Geo.Geohash
import ColumnIndex.Mapper.Kind
import ColumnIndex.Mapper.Sortable
import ColumnIndex.Number.Binary.Reader
import ColumnIndex.Number.Decimal.Reader
import ColumnIndex.Value

/-!
# Coercion

A cell is coerced to the payload that its mapper calls for, or it is rejected. Numbers are cut off
toward zero and never rounded; what is out of range is rejected and never wrapped.

## Main definitions

* `Numeric` — a value read as a number, before it is narrowed.
* `MapperKind.coerce` — the payload of a scalar value.
* `MapperKind.coordinate` — a value as a coordinate.
* `CoercionFault` — a rejection, with the place where it happened.
-/
namespace ColumnIndex

/-! ## Faults -/

/-- Why a value was rejected. -/
inductive CoercionCause
  | value (v : Value)
  | digits (fault : Decimal.DigitFault)
  /-- One coordinate of a point is there and the other is not. -/
  | loneCoordinate
  /-- A payload that the mapper does not produce. -/
  | payload (base : FieldValue)

/-- The wording of a cause. -/
def CoercionCause.message : CoercionCause → String
  | value v => v.shown
  | digits fault => fault.message
  | loneCoordinate => Value.null.shown
  | payload base => base.shown

/-- A rejection: the field of the mapper, the column of the value, and the cause. -/
structure CoercionFault where
  field : String
  column : String
  cause : CoercionCause

namespace CoercionFault

/-- The wording of a rejection. -/
def message (fault : CoercionFault) : String :=
  "invalid value for mapping '" ++ fault.field ++ "' in column '" ++ fault.column ++ "': "
    ++ fault.cause.message

/-- Whether a value itself was rejected. -/
def isRejection (fault : CoercionFault) : Bool :=
  match fault.cause with
  | .value _ | .digits _ => true
  | .loneCoordinate | .payload _ => false

instance : Reported CoercionFault where
  report fault := ⟨.coercion, .mapper, fault.message⟩

end CoercionFault

/-! ## Numbers -/

/-- A value read as a number, before it is narrowed. -/
inductive Numeric
  | integral (i : Int)
  | fractional (x : Double)
  | exact (d : Decimal)

namespace Numeric

/-- The number that a text denotes: a whole one if it has the form of one and fits sixty-four
bits. -/
def parse? (text : String) : Option Numeric :=
  let cs := Text.trimChars text.toList
  match Text.signed? 64 cs with
  | some i => some (integral i)
  | none => (BinaryFloat.parse? cs).map fractional

/-- The number that a value is or denotes. -/
def ofValue? : Value → Option Numeric
  | .int i => some (integral i.toInt)
  | .long i => some (integral i.toInt)
  | .float x => some (fractional x.convert)
  | .double x => some (fractional x)
  | .decimal d => some (exact d)
  | .text s => parse? s
  | _ => none

/-- The whole part, on the side of zero, unless there is no number. -/
def truncate? : Numeric → Option Int
  | integral i => some i
  | fractional x => x.truncate?
  | exact d => some d.truncate

/-- The whole part in so many bits, if it fits. -/
def toInt? (bits : Nat) (n : Numeric) : Option Int :=
  n.truncate?.filter fun i => -2 ^ (bits - 1) ≤ i && i < 2 ^ (bits - 1)

/-- The number of double precision, if it is finite. -/
def toDouble? (n : Numeric) : Option Double :=
  let x : Double := match n with
    | integral i => .ofInt i
    | fractional x => x
    | exact d => d.toDouble
  if x.isFinite then some x else none

/-- The number of single precision, if it is finite. -/
def toSingle? (n : Numeric) : Option Single :=
  n.toDouble?.bind fun x =>
    let y : Single := x.convert
    if y.isFinite then some y else none

/-- The decimal number; one that is not exact is taken with its shortest digits. -/
def toDecimal? : Numeric → Option Decimal
  | integral i => Decimal.ofInt? i
  | fractional x => if x.isFinite then Decimal.parse? x.plainText else none
  | exact d => some d

end Numeric

/-! ## Other kinds of payloads -/

/-- The decimal number that a value is or denotes. -/
def Value.toDecimal? : Value → Option Decimal
  | .text s => Decimal.parse? s
  | v => (Numeric.ofValue? v).bind Numeric.toDecimal?

/-- The truth value that a value is or denotes, whatever the case of its letters. -/
def Value.toBool? : Value → Option Bool
  | .bool b => some b
  | .text s =>
    if Text.sameIgnoringAsciiCase s "true" then some true
    else if Text.sameIgnoringAsciiCase s "false" then some false
    else none
  | _ => none

/-- Milliseconds of so many nanoseconds, the last one perhaps not full. -/
def millisOfNanos (nanos : Int) : Int := nanos / 1000000

/-- Milliseconds up to the start of a day. -/
def millisOfDay (day : Int) : Int := day * 86400000

/-- Milliseconds since the epoch of a text in the form of the pattern: an instant if the text has
an offset, or else a time of the universal clock, or else a day. -/
def millisOfText? (pattern text : String) : Option Int := do
  let items ← (Pattern.parse pattern).toOption
  let reading ← Pattern.read? items (Text.trimChars text.toList)
  reading.instant?.map millisOfNanos <|> reading.localInstant?.map millisOfNanos
    <|> reading.day?.map millisOfDay

/-- Milliseconds since the epoch. -/
def Value.toMillis? (pattern : String) : Value → Option Int
  | .date d => some (millisOfDay d.dayNumber)
  | .timestamp t => some (millisOfNanos t.instant)
  | .int i => some i.toInt
  | .long i => some i.toInt
  | .text s => millisOfText? pattern s
  | _ => none

/-- The characters without a mark for hexadecimal digits. -/
def dropHexMark : List Char → List Char
  | '0' :: 'x' :: cs => cs
  | '0' :: 'X' :: cs => cs
  | cs => cs

/-- The hexadecimal digits of bytes, or those of a text that spells bytes, in lower case. -/
def Value.toHex? : Value → Option String
  | .blob bytes => some (String.ofList (Text.hexOfBytes bytes))
  | .text s =>
    let digits := dropHexMark (Text.trimChars s.toList)
    (Text.bytesOfHex? digits).map fun _ => String.ofList (digits.map Char.toLower)
  | _ => none

/-- The network address that a value is or denotes. -/
def Value.toAddress? : Value → Option Address
  | .inet a => some a
  | .text s => Address.parse? (Text.trimChars s.toList)
  | _ => none

/-- The identifier that a value is or denotes. -/
def Value.toUuid? : Value → Option Uuid
  | .uuid u => some u
  | .text s => Uuid.parse? (Text.trimChars s.toList)
  | _ => none

/-! ## Coercion -/

namespace MapperKind

/-- The payload of a scalar value, or why there is none. Points are made of two values, so no
value is one by itself. -/
def coerce (k : MapperKind) (v : Value) : Except CoercionCause FieldValue :=
  let orRejected (base : Option FieldValue) : Except CoercionCause FieldValue :=
    match base with
    | some b => .ok b
    | none => .error (.value v)
  match k with
  | integer => orRejected (((Numeric.ofValue? v).bind (Numeric.toInt? 32)).map (.int ∘ Int32.ofInt))
  | long => orRejected (((Numeric.ofValue? v).bind (Numeric.toInt? 64)).map (.long ∘ Int64.ofInt))
  | float => orRejected (((Numeric.ofValue? v).bind Numeric.toSingle?).map .float)
  | double => orRejected (((Numeric.ofValue? v).bind Numeric.toDouble?).map .double)
  | bigDecimal whole fraction =>
    match v.toDecimal? with
    | none => .error (.value v)
    | some d =>
      match d.sortable whole.toNat fraction.toNat with
      | .ok s => .ok (.str s)
      | .error fault => .error (.digits fault)
  | string caseSensitive =>
    orRejected (v.canonical?.map fun s => .str (if caseSensitive then s else Text.lowercase s))
  | text _ => orRejected (v.canonical?.map .str)
  | boolean => orRejected (v.toBool?.map fun b => .str (if b then "true" else "false"))
  | date pattern => orRejected ((v.toMillis? pattern).map (.long ∘ Int64.ofInt))
  | blob => orRejected (v.toHex?.map .str)
  | inet => orRejected (v.toAddress?.map fun a => .str a.text)
  | uuid => orRejected (v.toUuid?.map fun u => .str u.text)
  | geoPoint .. => .error (.value v)

/-- A value as a coordinate of a point: a finite number in the range of latitudes or of
longitudes. -/
def coordinate (isLatitude : Bool) (v : Value) : Except CoercionCause FieldValue :=
  match (Numeric.ofValue? v).bind Numeric.toDouble? with
  | none => .error (.value v)
  | some x =>
    if (if isLatitude then Geo.isLatitude x else Geo.isLongitude x) then .ok (.double x)
    else .error (.value v)

end MapperKind

end ColumnIndex
