import ColumnIndex.Json.Tree
import ColumnIndex.Number.Binary.Arithmetic
import ColumnIndex.Number.Binary.Reader

/-!
# JSON tokens

A JSON text falls into tokens. A token that cannot be read says why. There are two ways to fail,
because a value may also be passed over: passing over looks only at where a value ends, and lets
a number be too large and half of a surrogate pair stand alone.

## Main definitions

* `Json.SyntaxFault` — what may be wrong with a text, and its wording.
* `Json.Token` — the tokens.
* `Json.tokens` — the tokens of a text.
-/
namespace ColumnIndex.Json

/-- What may be wrong with a JSON text. -/
inductive SyntaxFault
  | endOfList
  | endOfObject
  | endOfText
  | endOfValue
  | noColon
  | noCommaInList
  | noCommaInObject
  | badWord
  | noValue
  | badEscape
  | badNumber
  | numberTooLarge
  | controlCharacter
  | keyNotText
  | loneSurrogate
  | halfPair
  | trailingComma
  | trailingCharacters
  | tooDeep
  deriving DecidableEq

/-- The wording of a fault. -/
def SyntaxFault.message : SyntaxFault → String
  | endOfList => "EOF while parsing a list"
  | endOfObject => "EOF while parsing an object"
  | endOfText => "EOF while parsing a string"
  | endOfValue => "EOF while parsing a value"
  | noColon => "expected `:`"
  | noCommaInList => "expected `,` or `]`"
  | noCommaInObject => "expected `,` or `\x7d`"
  | badWord => "expected ident"
  | noValue => "expected value"
  | badEscape => "invalid escape"
  | badNumber => "invalid number"
  | numberTooLarge => "number out of range"
  | controlCharacter => "control character (\\u0000-\\u001F) found while parsing a string"
  | keyNotText => "key must be a string"
  | loneSurrogate => "lone leading surrogate in hex escape"
  | halfPair => "unexpected end of hex escape"
  | trailingComma => "trailing comma"
  | trailingCharacters => "trailing characters"
  | tooDeep => "recursion limit exceeded"

/-- Why a text cannot be read on: the fault when a value is wanted, and the fault when it is
passed over. -/
structure Stop where
  wanted : SyntaxFault
  skipped : SyntaxFault

/-- A stop that is the same fault either way. -/
def Stop.both (fault : SyntaxFault) : Stop := ⟨fault, fault⟩

/-- The pieces of a JSON text. -/
inductive Token
  | openList
  | closeList
  | openObject
  | closeObject
  | comma
  | colon
  /-- A word or a number that can be read, or a number that can only be passed over. -/
  | plain (value : Except SyntaxFault Json)
  /-- A text that can be read, or one that can only be passed over. -/
  | text (value : Except SyntaxFault String)
  /-- Nothing can be read from here on. -/
  | stop (inText : Bool) (stop : Stop)

/-! ## Texts -/

/-- What comes of a text: its value and what follows it, or a stop. -/
inductive TextEnd
  | closed (value : Except SyntaxFault String) (rest : List Char)
  | stopped (stop : Stop)

/-- A stop in a text in which a fault may have been found before. -/
def stopText (flaw : Option SyntaxFault) (fault : SyntaxFault) : TextEnd :=
  .stopped ⟨flaw.getD fault, fault⟩

/-- The characters that a backslash and one character stand for. -/
def simpleEscape? (c : Char) : Option Char :=
  if c = '"' ∨ c = '\\' ∨ c = '/' then some c
  else if c = 'b' then some '\x08'
  else if c = 'f' then some '\x0c'
  else if c = 'n' then some '\n'
  else if c = 'r' then some '\r'
  else if c = 't' then some '\t'
  else none

/-- The number that four digits spell. -/
def hex4? (a b c d : Char) : Option Nat := Text.hexNumber? [a, b, c, d]

/-- The character of a pair of surrogates. -/
def pairChar (high low : Nat) : Char :=
  Char.ofNat ((high - 0xD800) * 1024 + (low - 0xDC00) + 0x10000)

/-- The fault of a leading surrogate that is followed by these characters, none of which is the
other half of its pair. -/
def unpairedFault : List Char → SyntaxFault
  | '\\' :: 'u' :: _ => .loneSurrogate
  | _ => .halfPair

-- The sum of no numbers is the numeral zero.
attribute [local instance (high)] Zero.ofOfNat0

/-- The rest of a text. `flaw` is the first fault that does not hinder passing over, `read` are
the characters so far, in reverse. -/
def textFrom (flaw : Option SyntaxFault) (read : List Char) : List Char → TextEnd
  | [] => stopText flaw .endOfText
  | '"' :: cs =>
    .closed (match flaw with
      | some fault => .error fault
      | none => .ok (String.ofList read.reverse)) cs
  | '\\' :: 'u' :: a :: b :: c :: d :: cs =>
    match hex4? a b c d with
    | none => stopText flaw .badEscape
    | some n =>
      if n < 0xD800 ∨ 0xDFFF < n then textFrom flaw (Char.ofNat n :: read) cs
      else if 0xDC00 ≤ n then textFrom (some (flaw.getD .loneSurrogate)) read cs
      else
        match cs with
        | '\\' :: 'u' :: e :: f :: g :: h :: rest =>
          match hex4? e f g h with
          | none => stopText flaw .badEscape
          | some m =>
            if 0xDC00 ≤ m ∧ m ≤ 0xDFFF then textFrom flaw (pairChar n m :: read) rest
            else textFrom (some (flaw.getD .loneSurrogate)) read rest
        | '\\' :: 'u' :: few =>
          stopText flaw (if (few.map Char.utf8Size).sum < 4 then .endOfText else .badEscape)
        | ['\\'] => stopText flaw .endOfText
        | [] => stopText flaw .endOfText
        | c :: rest =>
          textFrom (some (flaw.getD (unpairedFault (c :: rest)))) read (c :: rest)
  | '\\' :: 'u' :: few =>
    stopText flaw (if (few.map Char.utf8Size).sum < 4 then .endOfText else .badEscape)
  | '\\' :: c :: cs =>
    match simpleEscape? c with
    | some e => textFrom flaw (e :: read) cs
    | none => stopText flaw .badEscape
  | '\\' :: [] => stopText flaw .endOfText
  | c :: cs =>
    if c.toNat < 32 then stopText flaw .controlCharacter else textFrom flaw (c :: read) cs

/-- What follows a text is shorter than the text. -/
theorem textFrom_length {flaw : Option SyntaxFault} {read cs : List Char}
    {value : Except SyntaxFault String} {rest : List Char}
    (h : textFrom flaw read cs = .closed value rest) : rest.length < cs.length := by
  fun_induction textFrom flaw read cs <;>
    simp_all only [stopText, List.length_cons, TextEnd.closed.injEq, reduceCtorEq,
      true_imp_iff] <;>
    omega

/-! ## Numbers -/

/-- The leading digits of a number as far as they fit sixty-four bits, and the digits after. -/
def leadingDigits (significand : Nat) : List Char → Nat × List Char
  | [] => (significand, [])
  | c :: cs =>
    let longer := 10 * significand + Text.digitValue c
    if longer < 2 ^ 64 then leadingDigits longer cs else (significand, c :: cs)

/-- The number times a power of ten, one table entry at a time: a step goes at most to the 308th
power, and after two steps down nothing is left. There is no result beyond the finite numbers. -/
def scaled : Nat → Double → Int → Option Double
  | 0, x, _ => some x
  | steps + 1, x, e =>
    if -308 ≤ e ∧ e ≤ 308 then
      let power : Double := .ofDecimal false 1 e.natAbs
      let result := if 0 ≤ e then x.mul power else x.div power
      if result.isInfinite then none else some result
    else if x.isZero then some x
    else if 0 ≤ e then none
    else scaled steps (x.div (.ofDecimal false 1 308)) (e + 308)

/-- The fractional number with the sign, the leading digits and the power of ten. -/
def fractional (negative : Bool) (significand : Nat) (exponent : Int) :
    Except SyntaxFault Json :=
  match scaled 3 (.ofInt significand) exponent with
  | some x => .ok (.number (.double (if negative then x.neg else x)))
  | none => .error .numberTooLarge

/-- The number that the parts spell. Only as many leading digits count as fit sixty-four bits.
Without a point or an exponent it is whole if it fits; a negative zero is not. -/
def numberValue (negative : Bool) (whole : List Char) (fraction : Option (List Char))
    (exponent : Option (Bool × List Char)) : Except SyntaxFault Json :=
  let (significand, dropped) := leadingDigits 0 whole
  match fraction, exponent with
  | none, none =>
    if !dropped.isEmpty then fractional negative significand dropped.length
    else if negative then
      if significand = 0 ∨ 2 ^ 63 < significand then
        .ok (.number (.double (BinaryFloat.neg (.ofInt significand))))
      else .ok (.number (.whole (-(significand : Int))))
    else .ok (.number (.whole significand))
  | fraction, exponent =>
    let digits := fraction.getD []
    let (significand, unused) := leadingDigits significand digits
    let start : Int := dropped.length - (digits.length - unused.length : Nat)
    match exponent with
    | none => fractional negative significand start
    | some (down, digits) =>
      let size := Text.numberOf digits
      if size < 2 ^ 31 then
        fractional negative significand (if down then start - size else start + size)
      else if significand ≠ 0 ∧ !down then .error .numberTooLarge
      else .ok (.number (.double (.zero negative)))

/-- A stop where the digits of a number are missing. -/
def missingDigits (rest : List Char) : Token :=
  if rest.isEmpty then .stop false ⟨.endOfValue, .badNumber⟩ else .stop false (.both .badNumber)

/-- The exponent of a number, and what follows it: its sign and its digits. -/
def exponentPart (cs : List Char) : Except Token (Option (Bool × List Char) × List Char) :=
  match cs with
  | c :: rest =>
    if c = 'e' ∨ c = 'E' then
      let (down, rest) := match rest with
        | '+' :: rest => (false, rest)
        | '-' :: rest => (true, rest)
        | rest => (false, rest)
      let digits := rest.takeWhile Text.isDigit
      if digits.isEmpty then .error (missingDigits rest)
      else .ok (some (down, digits), rest.drop digits.length)
    else .ok (none, cs)
  | [] => .ok (none, [])

/-- The fraction digits of a number, and what follows them. -/
def fractionPart (cs : List Char) : Except Token (Option (List Char) × List Char) :=
  match cs with
  | '.' :: rest =>
    let digits := rest.takeWhile Text.isDigit
    if digits.isEmpty then .error (missingDigits rest)
    else .ok (some digits, rest.drop digits.length)
  | _ => .ok (none, cs)

/-- The digits before the point, and what follows them: a zero stands alone. -/
def wholePart (cs : List Char) : Except Token (List Char × List Char) :=
  let digits := cs.takeWhile Text.isDigit
  match digits with
  | [] => .error (missingDigits cs)
  | '0' :: _ :: _ => .error (.stop false (.both .badNumber))
  | _ => .ok (digits, cs.drop digits.length)

/-- The number at the start of the characters, and what follows it. -/
def numberToken (negative : Bool) (cs : List Char) : Except Token (Token × List Char) := do
  let (whole, rest) ← wholePart cs
  let (fraction, rest) ← fractionPart rest
  let (exponent, rest) ← exponentPart rest
  pure (.plain (numberValue negative whole fraction exponent), rest)

theorem exponentPart_length {cs rest : List Char} {e : Option (Bool × List Char)}
    (h : exponentPart cs = .ok (e, rest)) : rest.length ≤ cs.length := by
  unfold exponentPart at h
  grind

theorem fractionPart_length {cs rest : List Char} {f : Option (List Char)}
    (h : fractionPart cs = .ok (f, rest)) : rest.length ≤ cs.length := by
  unfold fractionPart at h
  grind

theorem wholePart_length {cs rest whole : List Char}
    (h : wholePart cs = .ok (whole, rest)) : rest.length < cs.length := by
  have hle : (cs.takeWhile Text.isDigit).length ≤ cs.length :=
    (List.takeWhile_sublist _).length_le
  unfold wholePart at h
  simp only at h
  split at h
  · contradiction
  · contradiction
  · rename_i hne _
    have := List.length_pos_iff.2 hne
    simp only [Except.ok.injEq, Prod.mk.injEq] at h
    obtain ⟨-, rfl⟩ := h
    simp only [List.length_drop]
    omega

theorem numberToken_length {negative : Bool} {cs rest : List Char} {t : Token}
    (h : numberToken negative cs = .ok (t, rest)) : rest.length < cs.length := by
  simp only [numberToken, bind, Except.bind, pure, Except.pure] at h
  split at h <;> try contradiction
  split at h <;> try contradiction
  split at h <;> try contradiction
  rename_i a h1 _ b h2 _ c h3
  obtain ⟨whole, rest1⟩ := a
  obtain ⟨fraction, rest2⟩ := b
  obtain ⟨exponent, rest3⟩ := c
  have := wholePart_length h1
  have := fractionPart_length h2
  have := exponentPart_length h3
  simp only [Except.ok.injEq, Prod.mk.injEq] at h
  obtain ⟨-, rfl⟩ := h
  simp only at *
  omega

/-! ## All tokens -/

/-- The blanks of JSON. -/
def isJsonBlank (c : Char) : Bool := c = ' ' || c = '\n' || c = '\t' || c = '\r'

/-- What follows the letters of a word, or the fault where they end. -/
def afterWord : List Char → List Char → Except SyntaxFault (List Char)
  | [], cs => .ok cs
  | _ :: _, [] => .error .endOfValue
  | w :: ws, c :: cs => if c = w then afterWord ws cs else .error .badWord

theorem afterWord_length {word cs rest : List Char} (h : afterWord word cs = .ok rest) :
    rest.length ≤ cs.length := by
  induction word generalizing cs with
  | nil => simp_all [afterWord]
  | cons w ws ih => cases cs <;> grind [afterWord]

/-- The tokens of the characters, up to the first stop. -/
def tokens : List Char → List Token
  | [] => []
  | c :: cs =>
    if isJsonBlank c then tokens cs
    else if c = '[' then .openList :: tokens cs
    else if c = ']' then .closeList :: tokens cs
    else if c = '\x7b' then .openObject :: tokens cs
    else if c = '\x7d' then .closeObject :: tokens cs
    else if c = ',' then .comma :: tokens cs
    else if c = ':' then .colon :: tokens cs
    else if c = '"' then
      match _h : textFrom none [] cs with
      | .closed value rest => .text value :: tokens rest
      | .stopped stop => [.stop true stop]
    else if c = 'n' then
      match _h : afterWord ['u', 'l', 'l'] cs with
      | .ok rest => .plain (.ok .null) :: tokens rest
      | .error fault => [.stop false (.both fault)]
    else if c = 't' then
      match _h : afterWord ['r', 'u', 'e'] cs with
      | .ok rest => .plain (.ok (.bool true)) :: tokens rest
      | .error fault => [.stop false (.both fault)]
    else if c = 'f' then
      match _h : afterWord ['a', 'l', 's', 'e'] cs with
      | .ok rest => .plain (.ok (.bool false)) :: tokens rest
      | .error fault => [.stop false (.both fault)]
    else if c = '-' then
      match _h : numberToken true cs with
      | .ok (token, rest) => token :: tokens rest
      | .error stop => [stop]
    else if Text.isDigit c then
      match _h : numberToken false (c :: cs) with
      | .ok (token, rest) => token :: tokens rest
      | .error stop => [stop]
    else [.stop false (.both .noValue)]
termination_by cs => cs.length
decreasing_by
  all_goals simp only [List.length_cons]
  all_goals first
    | omega
    | have := textFrom_length _h; omega
    | have := afterWord_length _h; omega
    | have := numberToken_length _h; grind

end ColumnIndex.Json
