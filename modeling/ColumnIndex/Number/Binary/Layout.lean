import ColumnIndex.Number.Binary.Shortest

/-!
# Texts of floating-point numbers

A finite number is written with its shortest digits. A `FloatLayout` says from where on an
exponent is used, whether a whole number keeps its point, and which of two equally near digit
strings is taken. There are three layouts: one for values, one for messages, one for JSON.
-/
namespace ColumnIndex

/-- The decisions of a format about its floating-point numbers. -/
structure FloatLayout where
  /-- The exponents of the first digit for which all digits are written out; `none`: all. -/
  positional : Option (Int × Int)
  /-- Whether a whole number is written with a point and a zero. -/
  keepsPoint : Bool
  /-- Whether a positive exponent is written with its sign. -/
  plusSign : Bool
  tie : TieRule

namespace FloatLayout

/-- Values and query texts write all digits and no needless point. -/
def plain : FloatLayout := ⟨none, false, false, .up⟩

/-- Messages write a point or an exponent, so that a reader sees a fractional type. -/
def shown : FloatLayout := ⟨some (-4, 15), true, false, .up⟩

/-- JSON numbers of double precision. -/
def jsonDouble : FloatLayout := ⟨some (-5, 15), true, true, .even⟩

/-- JSON numbers of single precision. -/
def jsonSingle : FloatLayout := ⟨some (-6, 12), true, true, .even⟩

/-- Whether all digits are written out when the first one has the given exponent. -/
def isPositional (layout : FloatLayout) (exponent : Int) : Bool :=
  match layout.positional with
  | none => true
  | some (least, most) => least ≤ exponent && exponent ≤ most

/-- All digits of a number, with a point where it belongs. -/
def positionalDigits (layout : FloatLayout) (s : Scientific) : List Char :=
  let digits := s.digits
  let point := s.point
  if point ≤ 0 then '0' :: '.' :: List.replicate (-point).toNat '0' ++ digits
  else if point < digits.length then
    digits.take point.toNat ++ '.' :: digits.drop point.toNat
  else
    digits ++ List.replicate (point.toNat - digits.length) '0'
      ++ if layout.keepsPoint then ['.', '0'] else []

/-- One digit before the point, and an exponent. -/
def exponentialDigits (layout : FloatLayout) (s : Scientific) : List Char :=
  let exponent := s.point - 1
  let mantissa := match s.digits with
    | d :: e :: rest => d :: '.' :: e :: rest
    | ds => ds
  let sign := if exponent < 0 then ['-'] else if layout.plusSign then ['+'] else []
  mantissa ++ 'e' :: sign ++ Text.digitsOf exponent.natAbs

/-- The digits of a positive magnitude. -/
def digits (layout : FloatLayout) (s : Scientific) : List Char :=
  if layout.isPositional (s.point - 1) then layout.positionalDigits s
  else layout.exponentialDigits s

end FloatLayout

namespace BinaryFloat

variable {F : FloatFormat}

/-- The characters of a number. -/
def chars (layout : FloatLayout) (x : BinaryFloat F) : List Char :=
  let sign := if x.negative then ['-'] else []
  if x.isNaN then ['N', 'a', 'N']
  else if x.isInfinite then sign ++ ['i', 'n', 'f']
  else if x.isZero then sign ++ '0' :: if layout.keepsPoint then ['.', '0'] else []
  else sign ++ layout.digits (F.shortest layout.tie x.code)

/-- The text of a number in a layout. -/
def text (layout : FloatLayout) (x : BinaryFloat F) : String := String.ofList (x.chars layout)

/-- The text of a number as a value: all digits, no exponent. -/
def plainText (x : BinaryFloat F) : String := x.text .plain

/-- The text of a number in a message. -/
def shownText (x : BinaryFloat F) : String := x.text .shown

end BinaryFloat

end ColumnIndex
