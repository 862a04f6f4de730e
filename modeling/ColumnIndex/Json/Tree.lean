import ColumnIndex.Entries
import ColumnIndex.Number.Binary.Layout
import ColumnIndex.Text.Hex

/-!
# JSON trees

Trees of JSON values and their compact text. Objects keep the order of their members. A number
is whole or fractional; one of single precision is written with its own shortest digits, and is
read as one of double precision.

## Main definitions

* `Json` — the trees.
* `Json.text` — the compact text of a tree.
* `Json.find?` — the value of a member.
* `Json.depth` — how deep lists and objects are nested.
-/
namespace ColumnIndex

/-- A number in a JSON text. -/
inductive Json.Number
  | whole (i : Int)
  | double (x : Double)
  | single (x : Single)

/-- A JSON value. -/
inductive Json
  | null
  | bool (b : Bool)
  | number (n : Json.Number)
  | text (s : String)
  | list (items : List Json)
  | object (members : List (String × Json))
  deriving Inhabited

namespace Json

/-- The characters of a number. What is not finite has no number, and is written as null. -/
def Number.chars : Number → List Char
  | whole i => Text.intChars i
  | double x => if x.isFinite then x.chars .jsonDouble else ['n', 'u', 'l', 'l']
  | single x => if x.isFinite then x.chars .jsonSingle else ['n', 'u', 'l', 'l']

/-- How one character of a text is written: quotes, backslashes and controls are escaped. -/
def escapedChar (c : Char) : List Char :=
  if c = '"' then ['\\', '"']
  else if c = '\\' then ['\\', '\\']
  else if c = '\n' then ['\\', 'n']
  else if c = '\r' then ['\\', 'r']
  else if c = '\t' then ['\\', 't']
  else if c = '\x08' then ['\\', 'b']
  else if c = '\x0c' then ['\\', 'f']
  else if c.toNat < 32 then
    ['\\', 'u', '0', '0', Text.hexDigit (c.toNat / 16), Text.hexDigit (c.toNat % 16)]
  else [c]

/-- The characters of a text between quotes. -/
def textChars (s : String) : List Char := '"' :: s.toList.flatMap escapedChar ++ ['"']

mutual

/-- The characters of a tree, without blanks. -/
def chars : Json → List Char
  | null => ['n', 'u', 'l', 'l']
  | bool true => ['t', 'r', 'u', 'e']
  | bool false => ['f', 'a', 'l', 's', 'e']
  | number n => n.chars
  | text s => textChars s
  | list items => '[' :: itemChars items
  | object members => '\x7b' :: memberChars members

/-- The characters of the items of a list, up to the bracket that closes it. -/
def itemChars : List Json → List Char
  | [] => [']']
  | [item] => item.chars ++ [']']
  | item :: other :: others => item.chars ++ ',' :: itemChars (other :: others)

/-- The characters of the members of an object, up to the brace that closes it. -/
def memberChars : List (String × Json) → List Char
  | [] => ['\x7d']
  | [(key, value)] => textChars key ++ ':' :: value.chars ++ ['\x7d']
  | (key, value) :: other :: others =>
    textChars key ++ ':' :: value.chars ++ ',' :: memberChars (other :: others)

end

/-- The compact text of a tree. -/
def compact (j : Json) : String := String.ofList j.chars

/-- The value of the member with the key, if the tree is an object that has one. -/
def find? (key : String) : Json → Option Json
  | object members => members.lookup key
  | _ => none

mutual

/-- How deep lists and objects are nested. -/
def depth : Json → Nat
  | list items => listDepth items + 1
  | object members => memberDepth members + 1
  | _ => 0

/-- The greatest depth of the items. -/
def listDepth : List Json → Nat
  | [] => 0
  | item :: items => max item.depth (listDepth items)

/-- The greatest depth of the values. -/
def memberDepth : List (String × Json) → Nat
  | [] => 0
  | (_, value) :: members => max value.depth (memberDepth members)

end

end Json

end ColumnIndex
