import ColumnIndex.Number.Decimal

/-!
# Sortable texts of decimal numbers

Decimal numbers of any size are kept as texts whose order is the order of the numbers. A text has
a mark for the sign, and as many digits before and after the point as the limits say. The digits
of a negative number are taken from nine each, so that greater magnitudes come first.

## Main definitions

* `Decimal.DigitFault` — a number that has too many digits.
* `Decimal.sortable` — the text of a number within limits.
-/
namespace ColumnIndex.Decimal

/-- A number has more digits than the limit. -/
inductive DigitFault
  | whole (found limit : Nat)
  | fraction (found limit : Nat)
  deriving DecidableEq

/-- The wording of a fault. -/
def DigitFault.message : DigitFault → String
  | whole found limit =>
    Text.intText found ++ " integer digits exceed the limit of " ++ Text.intText limit
  | fraction found limit =>
    Text.intText found ++ " decimal digits exceed the limit of " ++ Text.intText limit

/-- The digit that is left when a digit is taken from nine. -/
def complement (c : Char) : Char := Char.ofNat (105 - c.toNat)

/-- The text of digits that fill the limits. -/
def sortableChars (negative : Bool) (whole fraction : List Char) : List Char :=
  if negative then '0' :: whole.map complement ++ '.' :: fraction.map complement
  else '1' :: whole ++ '.' :: fraction

/-- The text of a number with so many digits before and after the point. -/
def sortable (wholeLimit fractionLimit : Nat) (d : Decimal) : Except DigitFault String :=
  let n := d.normalize
  let whole := n.wholeDigits
  let fraction := n.fractionDigits
  if wholeLimit < whole.length then .error (.whole whole.length wholeLimit)
  else if fractionLimit < fraction.length then .error (.fraction fraction.length fractionLimit)
  else
    .ok (String.ofList
      (sortableChars n.negative (Text.padLeft wholeLimit '0' whole)
        (Text.padRight fractionLimit '0' fraction)))

end ColumnIndex.Decimal
