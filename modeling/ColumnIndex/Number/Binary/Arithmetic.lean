import ColumnIndex.Number.Binary

/-!
# Arithmetic of binary floating-point numbers

Each operation on finite numbers is the exact one, rounded once. The cases with an infinity or
no number follow the usual conventions.
-/
namespace ColumnIndex.BinaryFloat

variable {F : FloatFormat}

/-- The number with the other sign. -/
def neg (x : BinaryFloat F) : BinaryFloat F := { x with negative := !x.negative }

/-- The sum, rounded once. -/
def add (x y : BinaryFloat F) : BinaryFloat F :=
  if x.isNaN || y.isNaN then nan
  else if x.isInfinite then (if y.isInfinite && x.negative != y.negative then nan else x)
  else if y.isInfinite then y
  else ofRat (x.negative && y.negative) (x.toRat + y.toRat)

/-- The product, rounded once. -/
def mul (x y : BinaryFloat F) : BinaryFloat F :=
  let negative := x.negative != y.negative
  if x.isNaN || y.isNaN then nan
  else if x.isInfinite then (if y.isZero then nan else infinity negative)
  else if y.isInfinite then (if x.isZero then nan else infinity negative)
  else ofRat negative (x.toRat * y.toRat)

/-- The quotient, rounded once. -/
def div (x y : BinaryFloat F) : BinaryFloat F :=
  let negative := x.negative != y.negative
  if x.isNaN || y.isNaN then nan
  else if x.isInfinite then (if y.isInfinite then nan else infinity negative)
  else if y.isInfinite then zero negative
  else if y.isZero then (if x.isZero then nan else infinity negative)
  else ofRat negative (x.toRat / y.toRat)

/-- The nearest whole number; of two the one farther from zero. -/
def roundHalfAway (x : BinaryFloat F) : BinaryFloat F :=
  if x.isFinite then
    ofRatio x.negative (roundHalfUp x.toRat.num.natAbs x.toRat.den) 1
  else x

/-- The number of another format nearest to this one. -/
def convert {G : FloatFormat} (x : BinaryFloat F) : BinaryFloat G :=
  if x.isNaN then nan
  else if x.isInfinite then infinity x.negative
  else ofRat x.negative x.toRat

/-- The whole part of a finite number, on the side of zero. -/
def truncate? (x : BinaryFloat F) : Option Int := x.toRat?.map truncate

end ColumnIndex.BinaryFloat
