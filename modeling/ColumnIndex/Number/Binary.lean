import ColumnIndex.Number.Rounding

/-!
# Binary floating-point numbers

A number of a binary interchange format is a sign and a code. The codes of a format are the
natural numbers below a limit, in the order of the magnitudes they stand for: first the finite
ones, then infinity, then those that stand for no number. So order is order of codes, the
neighbours of a number have the neighbouring codes, and rounding is a matter of counting.

## Main definitions

* `FloatFormat` — how many bits a format gives to fractions and exponents.
* `BinaryFloat` — a sign and a code.
* `BinaryFloat.toRat` — the rational number that a finite one denotes.
* `BinaryFloat.ofRat` — the number nearest to a rational one.
-/
namespace ColumnIndex

/-- The layout of a binary interchange format below its sign bit. -/
structure FloatFormat where
  fractionBits : Nat
  exponentBits : Nat

namespace FloatFormat

/-- Thirty-two bits. -/
def single : FloatFormat := ⟨23, 8⟩

/-- Sixty-four bits. -/
def double : FloatFormat := ⟨52, 11⟩

variable (F : FloatFormat)

/-- How many bits there are, with the sign. -/
def width : Nat := F.exponentBits + F.fractionBits + 1

/-- One more than the greatest code. -/
def codeLimit : Nat := 2 ^ (F.exponentBits + F.fractionBits)

/-- The code of infinity: all ones in the exponent and no fraction. -/
def infinityCode : Nat := (2 ^ F.exponentBits - 1) * 2 ^ F.fractionBits

/-- The distance between the smallest magnitudes is two to this power. -/
def minExponent : Int := 2 - 2 ^ (F.exponentBits - 1) - F.fractionBits

/-- The significant bits of a finite code, as a whole number. -/
def significand (code : Nat) : Nat :=
  if code < 2 ^ F.fractionBits then code
  else 2 ^ F.fractionBits + code % 2 ^ F.fractionBits

/-- The power of two that the last significant bit of a finite code counts. -/
def exponent (code : Nat) : Int :=
  F.minExponent + (code / 2 ^ F.fractionBits - 1 : Nat)

/-- The magnitude that a finite code stands for. -/
def magnitude (code : Nat) : Rat := F.significand code * 2 ^ F.exponent code

/-- The code of the magnitude nearest to `num / den`; of two the one with an even significand.
From half a step past the greatest finite magnitude on it is infinity. -/
def nearestCode (num den : Nat) : Nat :=
  if num = 0 then 0 else
  let exponent := max F.minExponent (floorLog2 num den - F.fractionBits)
  let bits := roundHalfEven (num * 2 ^ (-exponent).toNat) (den * 2 ^ exponent.toNat)
  min F.infinityCode ((exponent - F.minExponent).toNat * 2 ^ F.fractionBits + bits)

theorem infinityCode_lt : F.infinityCode < F.codeLimit := by
  unfold infinityCode codeLimit
  rw [Nat.pow_add]
  have he := Nat.two_pow_pos F.exponentBits
  exact Nat.mul_lt_mul_of_pos_right (by omega) (Nat.two_pow_pos _)

theorem nearestCode_le (num den : Nat) : F.nearestCode num den ≤ F.infinityCode := by
  unfold nearestCode
  split
  · exact Nat.zero_le _
  · exact Nat.min_le_left _ _

end FloatFormat

/-- A sign, and the code of a magnitude or of no number. -/
structure BinaryFloat (F : FloatFormat) where
  negative : Bool
  code : Nat
  code_lt : code < F.codeLimit

/-- A number of thirty-two bits. -/
abbrev Single := BinaryFloat .single

/-- A number of sixty-four bits. -/
abbrev Double := BinaryFloat .double

namespace BinaryFloat

variable {F : FloatFormat}

/-- The number whose bits, sign first, spell a natural number; higher bits are ignored. -/
def ofBits (bits : Nat) : BinaryFloat F where
  negative := bits / F.codeLimit % 2 == 1
  code := bits % F.codeLimit
  code_lt := Nat.mod_lt _ (Nat.two_pow_pos _)

/-- The bits of the number, sign first. -/
def toBits (x : BinaryFloat F) : Nat := (if x.negative then F.codeLimit else 0) + x.code

/-- Whether the bits stand for no number. -/
def isNaN (x : BinaryFloat F) : Bool := F.infinityCode < x.code

/-- Whether the number is one of the two infinities. -/
def isInfinite (x : BinaryFloat F) : Bool := x.code == F.infinityCode

/-- Whether the bits stand for a rational number. -/
def isFinite (x : BinaryFloat F) : Bool := x.code < F.infinityCode

/-- Whether the number is one of the two zeros. -/
def isZero (x : BinaryFloat F) : Bool := x.code == 0

/-- The rational number that a finite one denotes. -/
def toRat (x : BinaryFloat F) : Rat :=
  if x.negative then -F.magnitude x.code else F.magnitude x.code

/-- The rational number that the bits denote, if they denote one. -/
def toRat? (x : BinaryFloat F) : Option Rat := if x.isFinite then some x.toRat else none

/-- A place on the line of all magnitudes with their signs; the two zeros share one. -/
def place (x : BinaryFloat F) : Int := if x.negative then -(x.code : Int) else x.code

/-- Whether two numbers are equal; the two zeros are, and what is no number never is. -/
def same (x y : BinaryFloat F) : Bool := !x.isNaN && !y.isNaN && x.place == y.place

/-- Whether the first number is at most the second; never if either is none. -/
def le (x y : BinaryFloat F) : Bool := !x.isNaN && !y.isNaN && x.place ≤ y.place

/-- Whether the first number is less than the second; never if either is none. -/
def lt (x y : BinaryFloat F) : Bool := !x.isNaN && !y.isNaN && x.place < y.place

/-- The number with the sign and a magnitude that may be infinite. -/
def ofCode (negative : Bool) (code : Nat) (h : code ≤ F.infinityCode) : BinaryFloat F :=
  ⟨negative, code, Nat.lt_of_le_of_lt h F.infinityCode_lt⟩

/-- The zero with the sign. -/
def zero (negative : Bool) : BinaryFloat F := ofCode negative 0 (Nat.zero_le _)

/-- The infinity with the sign. -/
def infinity (negative : Bool) : BinaryFloat F := ofCode negative F.infinityCode (Nat.le_refl _)

/-- A value that is no number; of a format without fraction bits it is infinity. -/
def nan : BinaryFloat F where
  negative := false
  code := F.infinityCode + 2 ^ F.fractionBits / 2
  code_lt := by
    unfold FloatFormat.infinityCode FloatFormat.codeLimit
    rw [Nat.pow_add]
    have he := Nat.two_pow_pos F.exponentBits
    have hf := Nat.two_pow_pos F.fractionBits
    have hd : 2 ^ F.fractionBits / 2 < 2 ^ F.fractionBits := Nat.div_lt_self hf (by omega)
    calc (2 ^ F.exponentBits - 1) * 2 ^ F.fractionBits + 2 ^ F.fractionBits / 2
        < (2 ^ F.exponentBits - 1) * 2 ^ F.fractionBits + 2 ^ F.fractionBits := by omega
      _ = (2 ^ F.exponentBits - 1 + 1) * 2 ^ F.fractionBits := by rw [Nat.add_mul, Nat.one_mul]
      _ = 2 ^ F.exponentBits * 2 ^ F.fractionBits := by rw [Nat.sub_add_cancel he]

/-- The number nearest to `num / den` on the side of the sign. -/
def ofRatio (negative : Bool) (num den : Nat) : BinaryFloat F :=
  ofCode negative (F.nearestCode num den) (F.nearestCode_le num den)

/-- The number nearest to a rational one; a zero has the given sign. -/
def ofRat (negativeZero : Bool) (q : Rat) : BinaryFloat F :=
  ofRatio (if q.num = 0 then negativeZero else decide (q.num < 0)) q.num.natAbs q.den

/-- The number nearest to a whole one. -/
def ofInt (i : Int) : BinaryFloat F := ofRat false i

@[simp] theorem code_zero (negative : Bool) : (zero negative : BinaryFloat F).code = 0 := rfl

@[simp] theorem negative_ofCode (negative : Bool) (code : Nat) (h : code ≤ F.infinityCode) :
    (ofCode negative code h).negative = negative := rfl

@[simp] theorem code_ofCode (negative : Bool) (code : Nat) (h : code ≤ F.infinityCode) :
    (ofCode negative code h).code = code := rfl

end BinaryFloat

end ColumnIndex
