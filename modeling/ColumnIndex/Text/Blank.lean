import ColumnIndex.Text.Ranges

/-!
# Blank characters

The characters with the Unicode property White_Space, and what is left of a text when they are
cut off its ends.

## Main definitions

* `isBlank` — the property itself.
* `trim` — a text without the blanks at its two ends.
* `isBlankText` — nothing but blanks.
-/
namespace ColumnIndex.Text

/-- The characters with the property White_Space. -/
def blankRanges : Ranges :=
  [(0x9, 0xd), (0x20, 0x20), (0x85, 0x85), (0xa0, 0xa0), (0x1680, 0x1680), (0x2000, 0x200a),
  (0x2028, 0x2029), (0x202f, 0x202f), (0x205f, 0x205f), (0x3000, 0x3000)]

/-- Whether the character counts as white space. -/
def isBlank (c : Char) : Bool := blankRanges.has c

/-- The characters without the blanks at the start. -/
def trimStart (cs : List Char) : List Char := cs.dropWhile isBlank

/-- The characters without the blanks at the end. -/
def trimEnd (cs : List Char) : List Char := (cs.reverse.dropWhile isBlank).reverse

/-- The characters without the blanks at either end. -/
def trimChars (cs : List Char) : List Char := trimEnd (trimStart cs)

/-- The text without the blanks at either end. -/
def trim (text : String) : String := String.ofList (trimChars text.toList)

/-- Whether the text has no character that is not blank. -/
def isBlankText (text : String) : Bool := text.toList.all isBlank

@[simp] theorem trimStart_nil : trimStart [] = [] := rfl

@[simp] theorem trimEnd_nil : trimEnd [] = [] := rfl

end ColumnIndex.Text
