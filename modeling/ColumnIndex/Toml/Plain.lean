import ColumnIndex.Calendar.Date
import ColumnIndex.Number.Binary.Reader
import ColumnIndex.Text.Hex
import ColumnIndex.Toml.Tree

/-!
# TOML values without quotes

Booleans, numbers, dates and times are written without quotes or brackets. Their first characters
do not always tell them apart, so the whole word is read at once.

## Main definitions

* `Toml.boolean?`, `Toml.integer?`, `Toml.float?`, `Toml.moment?` — the four grammars.
* `Toml.ofWord?` — the value of a word.
-/
namespace ColumnIndex.Toml

/-! ## Digits -/

/-- The digits of a run in which a single underscore may stand between two digits. `inside` says
whether a digit came before. -/
def groupedFrom? (isDigit : Char → Bool) (inside : Bool) : List Char → Option (List Char)
  | [] => if inside then some [] else none
  | c :: cs =>
    if isDigit c then (groupedFrom? isDigit true cs).map (c :: ·)
    else if c = '_' ∧ inside then groupedFrom? isDigit false cs
    else none

/-- The digits of a run of at least one digit. -/
def grouped? (isDigit : Char → Bool) (cs : List Char) : Option (List Char) :=
  groupedFrom? isDigit false cs

/-- Decimal digits of which the first is not a needless zero. -/
def decimalDigits? (cs : List Char) : Option (List Char) :=
  (grouped? Text.isDigit cs).filter fun digits =>
    digits.length = 1 || digits.head? != some '0'

/-- The digits behind a letter that stands for the base, as a number. -/
def inBase? (base : Nat) (cs : List Char) : Option Nat :=
  (grouped? (fun c => (Text.hexValue? c).any (· < base)) cs).map fun digits =>
    digits.foldl (fun n c => base * n + (Text.hexValue? c).getD 0) 0

/-- Whether a number is negative, and what follows its sign. -/
def signPart : List Char → Bool × List Char
  | '-' :: cs => (true, cs)
  | '+' :: cs => (false, cs)
  | cs => (false, cs)

/-! ## The four kinds -/

/-- One of the two truth values. -/
def boolean? (cs : List Char) : Option Bool :=
  if cs = "true".toList then some true
  else if cs = "false".toList then some false
  else none

/-- A whole number, in decimal digits with a sign or none, or in another base without a sign. -/
def integer? (cs : List Char) : Option Int :=
  match cs with
  | '0' :: 'x' :: digits => (inBase? 16 digits).map (↑·)
  | '0' :: 'o' :: digits => (inBase? 8 digits).map (↑·)
  | '0' :: 'b' :: digits => (inBase? 2 digits).map (↑·)
  | _ =>
    let (negative, rest) := signPart cs
    (decimalDigits? rest).map fun digits =>
      if negative then -(Text.numberOf digits : Int) else Text.numberOf digits

/-- The power of ten behind a letter e. Zeros may stand in front of it. -/
def exponentDigits? (cs : List Char) : Option Int :=
  let (negative, rest) := signPart cs
  (grouped? Text.isDigit rest).map fun digits =>
    if negative then -(Text.numberOf digits : Int) else Text.numberOf digits

/-- The digits behind a point and the power of ten, of which at least one must be there. -/
def fractionAndExponent? (cs : List Char) : Option (List Char × Int) :=
  let isMark (c : Char) : Bool := c = 'e' || c = 'E'
  match cs with
  | '.' :: rest => do
    let digits ← grouped? Text.isDigit (rest.takeWhile (!isMark ·))
    let exponent ← match rest.dropWhile (!isMark ·) with
      | [] => some 0
      | _ :: rest => exponentDigits? rest
    pure (digits, exponent)
  | c :: rest => if isMark c then (exponentDigits? rest).map ([], ·) else none
  | [] => none

/-- A fractional number, one of the two infinities, or no number. -/
def float? (cs : List Char) : Option Double := do
  let (negative, rest) := signPart cs
  if rest = "inf".toList then pure (.infinity negative)
  else if rest = "nan".toList then pure .nan
  else
    let isWhole (c : Char) : Bool := Text.isDigit c || c = '_'
    let whole ← decimalDigits? (rest.takeWhile isWhole)
    let (fraction, exponent) ← fractionAndExponent? (rest.dropWhile isWhole)
    pure (.ofDecimal negative (Text.numberOf (whole ++ fraction)) (exponent - fraction.length))

/-- The number that two digits spell. -/
def pair? (a b : Char) : Option Nat := Text.number? [a, b]

/-- What follows a date with four digits for the year. -/
def afterDate? : List Char → Option (List Char)
  | a :: b :: c :: d :: '-' :: e :: f :: '-' :: g :: h :: rest => do
    let year ← Text.number? [a, b, c, d]
    let month ← pair? e f
    let day ← pair? g h
    let _ ← Date.ofParts? year month day
    pure rest
  | _ => none

/-- What follows the seconds of a time, of which there may be none, and their fraction. -/
def afterSeconds? : List Char → Option (List Char)
  | ':' :: a :: b :: rest => do
    let second ← pair? a b
    if 60 < second then none
    else
      match rest with
      | '.' :: fraction =>
        if (fraction.takeWhile Text.isDigit).isEmpty then none
        else some (fraction.dropWhile Text.isDigit)
      | _ => some rest
  | ':' :: _ => none
  | rest => some rest

/-- What follows a time of day. -/
def afterTime? : List Char → Option (List Char)
  | a :: b :: ':' :: c :: d :: rest => do
    let hour ← pair? a b
    let minute ← pair? c d
    if 23 < hour ∨ 59 < minute then none else afterSeconds? rest
  | _ => none

/-- Whether the characters are the offset of a time, or nothing. -/
def isOffset : List Char → Bool
  | [] => true
  | ['Z'] => true
  | ['z'] => true
  | [sign, a, b, ':', c, d] =>
    (sign = '+' || sign = '-') && (pair? a b).any (· < 24) && (pair? c d).any (· < 60)
  | _ => false

/-- Whether the characters are a date, a time of day, or both with an offset or without one. -/
def isMoment (cs : List Char) : Bool :=
  match afterDate? cs with
  | some [] => true
  | some (c :: rest) =>
    (c = 'T' || c = 't' || c = ' ') && (afterTime? rest).any isOffset
  | none => afterTime? cs == some []

/-! ## All words -/

/-- Whether a whole number is in the range of a type of numbers, the widest of which have 128
bits with or without a sign. -/
def isRepresentable (i : Int) : Bool := -2 ^ 127 ≤ i && i < 2 ^ 128

/-- Whether a word spells out digits, and not the name of an infinity. -/
def spellsDigits (cs : List Char) : Bool := cs.any Text.isDigit

/-- The value of a word without quotes. -/
def ofWord? (cs : List Char) : Option Toml :=
  match boolean? cs, integer? cs, float? cs with
  | some b, _, _ => some (.boolean b)
  | none, some i, _ => some (if isRepresentable i then .integer i else .tooLarge)
  | none, none, some x =>
    some (if x.isInfinite && spellsDigits cs then .tooLarge else .float x)
  | none, none, none => if isMoment cs then some .moment else none

end ColumnIndex.Toml
