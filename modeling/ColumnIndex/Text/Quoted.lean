import ColumnIndex.Text.Hex
import ColumnIndex.Text.Printable

/-!
# Quoted text

How a message shows a text: between double quotes, with a backslash before a quote or a
backslash, short escapes for the common controls, and the code point in braces for every other
character that is not plain.
-/
namespace ColumnIndex.Text

/-- How one character is shown between quotes. -/
def quotedChar (c : Char) : List Char :=
  if c = '"' then ['\\', '"']
  else if c = '\\' then ['\\', '\\']
  else if c = '\n' then ['\\', 'n']
  else if c = '\r' then ['\\', 'r']
  else if c = '\t' then ['\\', 't']
  else if c.toNat = 0 then ['\\', '0']
  else if isPlain c then [c]
  else ['\\', 'u', '\x7b'] ++ hexOfNat c.toNat ++ ['\x7d']

/-- The text between quotes. -/
def quoted (text : String) : String :=
  String.ofList ('"' :: text.toList.flatMap quotedChar ++ ['"'])

end ColumnIndex.Text
