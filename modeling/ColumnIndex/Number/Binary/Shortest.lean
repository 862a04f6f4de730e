import ColumnIndex.Number.Binary
import ColumnIndex.Text.Digits

/-!
# Shortest decimal digits

A finite number is told apart from its neighbours by a decimal number between the midpoints to
them. `shortest` finds the one with the fewest digits, and of those the nearest: on a decimal
grid only the two points next to the number matter, and the coarsest grid with one of them in
range wins.
-/
namespace ColumnIndex

/-- A whole number times a power of ten. -/
structure Scientific where
  coefficient : Nat
  exponent : Int

namespace Scientific

/-- The digits of the coefficient. -/
def digits (s : Scientific) : List Char := Text.digitsOf s.coefficient

/-- How many digits stand before the decimal point when all are written out. -/
def point (s : Scientific) : Int := s.digits.length + s.exponent

/-- The rational number that is denoted. -/
def toRat (s : Scientific) : Rat := s.coefficient * 10 ^ s.exponent

/-- The same number with a coefficient that does not end in zero; at most as many zeros are
taken off as the first argument says. -/
def trimZeros : Nat → Scientific → Scientific
  | 0, s => s
  | n + 1, s =>
    if s.coefficient % 10 = 0 then trimZeros n ⟨s.coefficient / 10, s.exponent + 1⟩ else s

end Scientific

/-- Which of two equally near decimal numbers is chosen. -/
inductive TieRule
  /-- The greater one. -/
  | up
  /-- The one whose last digit is even. -/
  | even

namespace FloatFormat

variable (F : FloatFormat)

/-- All decimal digits of the magnitude of a finite code. -/
def exactDigits (code : Nat) : Scientific :=
  let m := F.significand code
  let e := F.exponent code
  if e < 0 then ⟨m * 5 ^ (-e).toNat, e⟩ else ⟨m * 2 ^ e.toNat, 0⟩

/-- The point of the decimal grid with the given exponent that is chosen for a finite code, if
one of its two neighbours on the grid rounds to it. Distances are counted in quarters of the
step to the next code; the step down from a power of two is half as long. -/
def gridPoint? (tie : TieRule) (code : Nat) (grid : Int) : Option Scientific :=
  let m := F.significand code
  let e := F.exponent code - 2
  let up := 4 * m + 2
  let down :=
    if m = 2 ^ F.fractionBits ∧ 2 * 2 ^ F.fractionBits ≤ code then 4 * m - 1 else 4 * m - 2
  let scale := 2 ^ e.toNat * 10 ^ (-grid).toNat
  let unit := 2 ^ (-e).toNat * 10 ^ grid.toNat
  let inRange (c : Nat) : Bool :=
    if m % 2 = 0 then down * scale ≤ c * unit && c * unit ≤ up * scale
    else down * scale < c * unit && c * unit < up * scale
  let low := 4 * m * scale / unit
  let toLow := 4 * m * scale - low * unit
  let toHigh := (low + 1) * unit - 4 * m * scale
  let nearLow : Bool := toLow < toHigh || toLow == toHigh && match tie with
    | .up => false
    | .even => low % 2 == 0
  if inRange low && (nearLow || !inRange (low + 1)) then some ⟨low, grid⟩
  else if inRange (low + 1) then some ⟨low + 1, grid⟩
  else none

/-- The decimal number with the fewest digits that rounds to the finite code, and of those the
nearest to it. No more digits are tried than the format has bits. -/
def shortest (tie : TieRule) (code : Nat) : Scientific :=
  let exact := F.exactDigits code
  let found := (List.range (F.fractionBits + 2)).findSome? fun (n : Nat) =>
    F.gridPoint? tie code (exact.point - n)
  let chosen := found.getD exact
  chosen.trimZeros chosen.digits.length

end FloatFormat

end ColumnIndex
