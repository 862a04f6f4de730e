import ColumnIndex.Number.Binary
import ColumnIndex.Text.Digits

/-!
# Reading floating-point numbers

A decimal text denotes a rational number, and is read as the floating-point number nearest to
it, however many digits it has. The names of infinity and of no number are read in any case.

## Main definitions

* `DecimalText` — the parts of a decimal text: digits, fraction digits and exponent.
* `DecimalText.parse?` — the grammar.
* `BinaryFloat.parse?` — a text as a floating-point number.
-/
namespace ColumnIndex

/-- The digits of an unsigned decimal text, without its point, and the power of ten that the last
of them counts. -/
structure DecimalText where
  digits : List Char
  exponent : Int

namespace DecimalText

/-- The rational number that is denoted. -/
def toRat (d : DecimalText) : Rat := Text.numberOf d.digits * 10 ^ d.exponent

/-- A whole number with a sign or none. -/
def exponent? (cs : List Char) : Option Int :=
  match cs with
  | '-' :: rest => (Text.number? rest).map fun n => -(n : Int)
  | '+' :: rest => (Text.number? rest).map fun n => (n : Int)
  | _ => (Text.number? cs).map fun n => (n : Int)

/-- What may follow the digits: nothing, or a letter e and an exponent. -/
def exponentPart? : List Char → Option Int
  | [] => some 0
  | c :: cs => if c = 'e' ∨ c = 'E' then exponent? cs else none

/-- Digits with at most one point among or beside them, then an exponent or none. -/
def parse? (cs : List Char) : Option DecimalText :=
  let whole := cs.takeWhile Text.isDigit
  let (fraction, rest) := match cs.dropWhile Text.isDigit with
    | '.' :: rest => (rest.takeWhile Text.isDigit, rest.dropWhile Text.isDigit)
    | rest => ([], rest)
  if whole.isEmpty && fraction.isEmpty then none
  else (exponentPart? rest).map fun e => ⟨whole ++ fraction, e - fraction.length⟩

end DecimalText

namespace FloatFormat

variable (F : FloatFormat)

/-- The code nearest to `coefficient * 10 ^ exponent`. Beyond the reach of the exponents of the
format no power of ten is computed. -/
def nearestDecimal (coefficient : Nat) (exponent : Int) : Nat :=
  let point := (Text.digitsOf coefficient).length + exponent
  if coefficient = 0 then 0
  else if 2 ^ (F.exponentBits - 1) < point then F.infinityCode
  else if point < F.minExponent then 0
  else F.nearestCode (coefficient * 10 ^ exponent.toNat) (10 ^ (-exponent).toNat)

theorem nearestDecimal_le (coefficient : Nat) (exponent : Int) :
    F.nearestDecimal coefficient exponent ≤ F.infinityCode := by
  unfold nearestDecimal
  have := F.nearestCode_le (coefficient * 10 ^ exponent.toNat) (10 ^ (-exponent).toNat)
  grind

end FloatFormat

namespace BinaryFloat

variable {F : FloatFormat}

/-- The number nearest to a whole number times a power of ten. -/
def ofDecimal (negative : Bool) (coefficient : Nat) (exponent : Int) : BinaryFloat F :=
  ofCode negative (F.nearestDecimal coefficient exponent) (F.nearestDecimal_le _ _)

/-- The number that an unsigned text denotes. -/
def parseUnsigned? (negative : Bool) (cs : List Char) : Option (BinaryFloat F) :=
  match DecimalText.parse? cs with
  | some d => some (ofDecimal negative (Text.numberOf d.digits) d.exponent)
  | none =>
    match String.ofList (cs.map Char.toLower) with
    | "inf" => some (infinity negative)
    | "infinity" => some (infinity negative)
    | "nan" => some nan
    | _ => none

/-- The number that a text with a sign or none denotes. -/
def parse? : List Char → Option (BinaryFloat F)
  | '-' :: cs => parseUnsigned? true cs
  | '+' :: cs => parseUnsigned? false cs
  | cs => parseUnsigned? false cs

end BinaryFloat

end ColumnIndex
