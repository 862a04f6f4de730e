/-!
# The tokens of a date pattern

A pattern text falls into brackets, plain text outside of brackets, and parts inside of them: runs
of blanks and runs of other characters.

## Main definitions

* `Pattern.Token` — the pieces that a pattern text falls into.
* `Pattern.tokens` — the tokens of a pattern text.
-/
namespace ColumnIndex.Pattern

/-- A piece of a pattern text; brackets and parts come with the byte where they start. -/
inductive Token
  | opening (index : Nat)
  | closing (index : Nat)
  | literal (text : List Char)
  /-- Inside brackets: a run of blanks or of other characters. -/
  | part (blank : Bool) (text : List Char) (index : Nat)
  deriving DecidableEq

/-- The blanks that separate the parts of a component. -/
def isSeparator (c : Char) : Bool :=
  c = ' ' || c = '\t' || c = '\n' || c = '\x0c' || c = '\r'

/-- The tokens with a character of plain text in front. -/
def consLiteral (c : Char) : List Token → List Token
  | .literal text :: tokens => .literal (c :: text) :: tokens
  | tokens => .literal [c] :: tokens

/-- The tokens with a character of a component in front. -/
def consPart (c : Char) (index : Nat) : List Token → List Token
  | .part blank text next :: tokens =>
    if blank = isSeparator c then .part blank (c :: text) index :: tokens
    else .part (isSeparator c) [c] index :: .part blank text next :: tokens
  | tokens => .part (isSeparator c) [c] index :: tokens

/-- The tokens of the characters from the given byte on, inside so many open brackets. These are
counted up to 255; one more, and the text stands outside of brackets again. A backslash inside
brackets ends the tokens. -/
def tokensFrom (depth index : Nat) : List Char → List Token
  | [] => []
  | '[' :: '[' :: cs =>
    if depth = 0 then consLiteral '[' (tokensFrom 0 (index + 2) cs)
    else .opening index :: tokensFrom ((depth + 1) % 256) (index + 1) ('[' :: cs)
  | c :: cs =>
    let next := index + c.utf8Size
    if c = '[' then .opening index :: tokensFrom ((depth + 1) % 256) next cs
    else if depth = 0 then consLiteral c (tokensFrom 0 next cs)
    else if c = ']' then .closing index :: tokensFrom (depth - 1) next cs
    else if c = '\\' then []
    else consPart c index (tokensFrom depth next cs)

/-- The tokens of a pattern text. -/
def tokens (text : String) : List Token := tokensFrom 0 0 text.toList

end ColumnIndex.Pattern
