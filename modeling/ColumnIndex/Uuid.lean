import ColumnIndex.Text.Hex

/-!
# Universally unique identifiers

Sixteen bytes, written as five groups of lower-case digits. They are read with or without the
hyphens; with them also in braces, or as a name of the `urn:uuid:` scheme, which is read in any
case.
-/
namespace ColumnIndex

/-- An identifier of sixteen bytes. -/
structure Uuid where
  bytes : List UInt8
  length_eq : bytes.length = 16
  deriving DecidableEq

namespace Uuid

/-- The identifier with the bytes, if there are sixteen. -/
def ofBytes? (bytes : List UInt8) : Option Uuid :=
  if h : bytes.length = 16 then some ⟨bytes, h⟩ else none

/-- Digits with hyphens after the eighth, twelfth, sixteenth and twentieth. -/
def hyphenate (digits : List Char) : List Char :=
  digits.take 8 ++ '-' :: (digits.drop 8).take 4 ++ '-' :: (digits.drop 12).take 4
    ++ '-' :: (digits.drop 16).take 4 ++ '-' :: digits.drop 20

/-- The text of an identifier. -/
def text (u : Uuid) : String := String.ofList (hyphenate (Text.hexOfBytes u.bytes))

/-- The identifier that thirty-two digits spell. -/
def ofDigits? (digits : List Char) : Option Uuid := (Text.bytesOfHex? digits).bind ofBytes?

/-- The identifier that digits with hyphens in the right places spell. -/
def ofHyphenated? (cs : List Char) : Option Uuid :=
  let digits := cs.filter (· ≠ '-')
  if digits.length = 32 ∧ hyphenate digits = cs then ofDigits? digits else none

/-- The scheme that may stand before an identifier. -/
def scheme : List Char := "urn:uuid:".toList

/-- An identifier in any of its written forms. -/
def parse? (cs : List Char) : Option Uuid :=
  if cs.length = 32 then ofDigits? cs
  else if cs.length = 36 then ofHyphenated? cs
  else if cs.length = 38 ∧ cs.head? = some '{' ∧ cs.getLast? = some '}' then
    ofHyphenated? (cs.drop 1).dropLast
  else if (cs.take scheme.length).map Char.toLower = scheme then
    ofHyphenated? (cs.drop scheme.length)
  else none

end Uuid

end ColumnIndex
