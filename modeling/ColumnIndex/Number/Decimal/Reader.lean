import ColumnIndex.Number.Decimal
import ColumnIndex.Number.Rounding
import ColumnIndex.Text.Blank

/-!
# Reading decimal numbers

A decimal text is digits with a sign or none and at most one point, and underscores between the
digits. Digits before the point must fit; fraction digits that do not fit are cut off, and the
first of them rounds what is kept, a half away from zero. A text that is no plain decimal may be
one with an exponent.

## Main definitions

* `Decimal.plain?` — a text without an exponent.
* `Decimal.scientific?` — a text with an exponent.
* `Decimal.parse?` — either, with blanks around it.
-/
namespace ColumnIndex.Decimal

/-- Whether the character may stand among digits that are cut off. -/
def isFiller (c : Char) : Bool := Text.isDigit c || c = '_'

/-- The number without the given characters at its end. If the first of them is a digit of five
or more, the number is rounded up; a full coefficient then gives up its last digit. -/
def cutOff? (negative : Bool) (coefficient scale : Nat) (cut : List Char) : Option Decimal :=
  if !cut.all isFiller then none
  else if cut.head?.any fun c => Text.isDigit c && 5 ≤ Text.digitValue c then
    if coefficient + 1 < 2 ^ 96 then ofParts? negative (coefficient + 1) scale
    else if scale = 0 then none
    else ofParts? negative ((coefficient + 5) / 10) (scale - 1)
  else ofParts? negative coefficient scale

/-- The coefficient from which on an underscore at the place of the first digit that is cut off is
passed over. Behind a lesser one it counts as a digit of zero. -/
def longCoefficient : Nat := (2 ^ 64 - 1) / 10 - 255

/-- The number whose digits so far gave the coefficient and the scale. `point` says whether the
point has been read, `seen` whether a digit has. -/
def plainFrom (negative point seen : Bool) (coefficient scale : Nat) : List Char → Option Decimal
  | [] => if seen then ofParts? negative coefficient scale else none
  | c :: cs =>
    if Text.isDigit c then
      let longer := 10 * coefficient + Text.digitValue c
      let places := if point then scale + 1 else scale
      if 2 ^ 96 ≤ longer then
        if point then cutOff? negative coefficient scale (c :: cs) else none
      else if point && 28 ≤ places then
        cutOff? negative longer places
          (if longCoefficient ≤ coefficient then cs.dropWhile (· = '_') else cs)
      else plainFrom negative point true longer places cs
    else if c = '.' ∧ !point then plainFrom negative true seen coefficient scale cs
    else if c = '_' ∧ seen then plainFrom negative point seen coefficient scale cs
    else none

/-- A decimal text without an exponent. Zero has no sign. -/
def plain? (cs : List Char) : Option Decimal :=
  let read := match cs with
    | '-' :: rest => plainFrom true false false 0 0 rest
    | '+' :: rest => plainFrom false false false 0 0 rest
    | _ => plainFrom false false false 0 0 cs
  read.map fun d => if d.coefficient = 0 then { d with negative := false } else d

/-- The number divided by a power of ten, at most the twenty-eighth. Fraction digits after the
twenty-eighth are rounded off, a half away from zero. -/
def shiftRight? (d : Decimal) (places : Nat) : Option Decimal :=
  if 28 < places then none
  else
    let excess := d.scale + places - 28
    ofParts? d.negative (roundHalfUp d.coefficient (10 ^ excess)) (d.scale + places - excess)

/-- The number times a power of ten, at most the twenty-eighth. -/
def shiftLeft? (d : Decimal) (places : Nat) : Option Decimal :=
  if places ≤ d.scale then ofParts? d.negative d.coefficient (d.scale - places)
  else if 28 < places then none
  else (ofParts? d.negative (d.coefficient * 10 ^ (places - d.scale)) 0).map normalize

/-- A decimal text with an exponent after its first letter e. A sign of the exponent may be
doubled by a plus. -/
def scientific? (cs : List Char) : Option Decimal :=
  let isMark (c : Char) : Bool := c = 'e' || c = 'E'
  match cs.dropWhile (!isMark ·) with
  | [] => none
  | _ :: exponent => do
    let d ← plain? (cs.takeWhile (!isMark ·))
    match exponent with
    | '-' :: rest => do
      let places ← Text.unsigned? (2 ^ 32) rest
      d.shiftRight? places
    | _ => do
      let places ← Text.unsigned? (2 ^ 32) exponent
      d.shiftLeft? places

/-- A decimal text of either form, with blanks around it. -/
def parse? (text : String) : Option Decimal :=
  let cs := Text.trimChars text.toList
  plain? cs <|> scientific? cs

end ColumnIndex.Decimal
