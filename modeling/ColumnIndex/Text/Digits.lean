import ColumnIndex.Number.Rounding

/-!
# Decimal digits

Whole numbers as texts of decimal digits, with and without a sign.

## Main definitions

* `digitsOf` — the digits of a number, without leading zeros.
* `intText` — the text of a whole number.
* `number?` — the number that digits spell.
* `unsigned?`, `signed?` — whole numbers with an optional sign and a limit on their size.
-/
namespace ColumnIndex.Text

/-- Whether the character is one of the ten ASCII digits. -/
def isDigit (c : Char) : Bool := '0' ≤ c && c ≤ '9'

/-- The number that one digit stands for. -/
def digitValue (c : Char) : Nat := c.toNat - 48

/-- The digits of a number, without leading zeros. -/
def digitsOf (n : Nat) : List Char := Nat.toDigits 10 n

/-- The characters of a whole number, with a minus sign or none. -/
def intChars (i : Int) : List Char :=
  if i < 0 then '-' :: digitsOf i.natAbs else digitsOf i.natAbs

/-- The text of a whole number. -/
def intText (i : Int) : String := String.ofList (intChars i)

/-- The number that a list of digits spells. -/
def numberOf (digits : List Char) : Nat :=
  digits.foldl (fun n c => 10 * n + digitValue c) 0

/-- The number that the characters spell, if there is at least one and all are digits. -/
def number? (cs : List Char) : Option Nat :=
  if cs.isEmpty || !cs.all isDigit then none else some (numberOf cs)

/-- The characters with as many of the given one in front as reach the width. -/
def padLeft (width : Nat) (fill : Char) (cs : List Char) : List Char :=
  List.replicate (width - cs.length) fill ++ cs

/-- The characters with as many of the given one behind as reach the width. -/
def padRight (width : Nat) (fill : Char) (cs : List Char) : List Char :=
  cs ++ List.replicate (width - cs.length) fill

/-- The digits of a number, with zeros in front up to the width. -/
def paddedDigits (width n : Nat) : List Char := padLeft width '0' (digitsOf n)

/-- A whole number below the limit: digits, with a plus sign or none. -/
def unsigned? (limit : Nat) (cs : List Char) : Option Nat :=
  let digits := match cs with
    | '+' :: rest => rest
    | _ => cs
  (number? digits).filter (· < limit)

/-- A whole number of so many bits in two's complement: digits, with a sign or none. -/
def signed? (bits : Nat) (cs : List Char) : Option Int :=
  match cs with
  | '-' :: rest => ((number? rest).filter (· ≤ 2 ^ (bits - 1))).map fun n => -(n : Int)
  | '+' :: rest => ((number? rest).filter (· < 2 ^ (bits - 1))).map fun n => (n : Int)
  | _ => ((number? cs).filter (· < 2 ^ (bits - 1))).map fun n => (n : Int)

@[simp] theorem numberOf_nil : numberOf [] = 0 := rfl

end ColumnIndex.Text
