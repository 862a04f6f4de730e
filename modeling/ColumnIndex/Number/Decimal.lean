import ColumnIndex.Number.Binary.Arithmetic
import ColumnIndex.Text.Digits

/-!
# Decimal numbers of ninety-six bits

A decimal number is a sign, a whole number of ninety-six bits and a count of fraction digits, at
most twenty-eight. Trailing zeros and the sign of zero are kept, so one rational number has many
decimal forms; `normalize` picks the one with the fewest digits.

## Main definitions

* `Decimal` — the numbers.
* `Decimal.toRat` — the rational number that is denoted.
* `Decimal.text` — all digits, with a point if there are fraction digits.
* `Decimal.toDouble` — the conversion to double precision, with its intermediate roundings.
-/
namespace ColumnIndex

/-- A sign, a coefficient and a count of fraction digits. -/
structure Decimal where
  negative : Bool
  coefficient : Nat
  scale : Nat
  coefficient_lt : coefficient < 2 ^ 96 := by decide
  scale_le : scale ≤ 28 := by decide
  deriving DecidableEq

namespace Decimal

/-- The number with the parts, if they are in range. -/
def ofParts? (negative : Bool) (coefficient scale : Nat) : Option Decimal :=
  if h : coefficient < 2 ^ 96 ∧ scale ≤ 28 then some ⟨negative, coefficient, scale, h.1, h.2⟩
  else none

/-- The whole number, if it is in range. -/
def ofInt? (i : Int) : Option Decimal := ofParts? (i < 0) i.natAbs 0

/-- The rational number that is denoted. -/
def toRat (d : Decimal) : Rat :=
  (if d.negative then -(d.coefficient : Int) else (d.coefficient : Int)) / 10 ^ d.scale

/-- The digits before the point; there is at least one. -/
def wholeDigits (d : Decimal) : List Char := Text.digitsOf (d.coefficient / 10 ^ d.scale)

/-- The digits after the point, as many as the scale says. -/
def fractionDigits (d : Decimal) : List Char :=
  if d.scale = 0 then [] else Text.paddedDigits d.scale (d.coefficient % 10 ^ d.scale)

/-- The characters of the magnitude. -/
def magnitudeChars (d : Decimal) : List Char :=
  if d.scale = 0 then d.wholeDigits else d.wholeDigits ++ '.' :: d.fractionDigits

/-- The text of the number; a negative zero keeps its sign. -/
def text (d : Decimal) : String :=
  String.ofList (if d.negative then '-' :: d.magnitudeChars else d.magnitudeChars)

/-- The coefficient and scale after at most so many zeros were taken off the end. -/
def trimZeros (coefficient : Nat) : Nat → Nat × Nat
  | 0 => (coefficient, 0)
  | scale + 1 =>
    if coefficient % 10 = 0 then trimZeros (coefficient / 10) scale else (coefficient, scale + 1)

theorem trimZeros_le (coefficient scale : Nat) :
    (trimZeros coefficient scale).1 ≤ coefficient ∧ (trimZeros coefficient scale).2 ≤ scale := by
  induction scale generalizing coefficient with
  | zero => simp [trimZeros]
  | succ scale ih =>
    unfold trimZeros
    split
    · have := ih (coefficient / 10)
      omega
    · simp

/-- The same number with the fewest fraction digits; zero loses its sign. -/
def normalize (d : Decimal) : Decimal where
  negative := d.negative && d.coefficient != 0
  coefficient := (trimZeros d.coefficient d.scale).1
  scale := (trimZeros d.coefficient d.scale).2
  coefficient_lt := Nat.lt_of_le_of_lt (trimZeros_le _ _).1 d.coefficient_lt
  scale_le := Nat.le_trans (trimZeros_le _ _).2 d.scale_le

/-- The whole part, on the side of zero. -/
def truncate (d : Decimal) : Int :=
  let whole : Int := (d.coefficient / 10 ^ d.scale : Nat)
  if d.negative then -whole else whole

/-- The number in double precision. A whole number is rounded once. Otherwise the whole part and
the fraction are converted apart and added, and a sum with a fraction is then rounded to as many
decimal places as the number has. -/
def toDouble (d : Decimal) : Double :=
  if d.scale = 0 then .ofInt d.truncate
  else
    let power := 10 ^ d.scale
    let whole : Double := .ofInt (d.coefficient / power : Nat)
    let fraction : Double := .ofInt (d.coefficient % power : Nat)
    let step : Double := .ofInt (power : Nat)
    let magnitude :=
      if fraction.isZero then whole
      else (((whole.add (fraction.div step)).mul step).roundHalfAway).div step
    if d.negative then magnitude.neg else magnitude

@[simp] theorem toRat_of_coefficient_zero {d : Decimal} (h : d.coefficient = 0) : d.toRat = 0 := by
  have hsteps : (if d.negative then -(d.coefficient : Int) else (d.coefficient : Int)) = 0 := by
    simp [h]
  rw [toRat, hsteps, Rat.div_def, Rat.intCast_zero, Rat.zero_mul]

end Decimal

end ColumnIndex
