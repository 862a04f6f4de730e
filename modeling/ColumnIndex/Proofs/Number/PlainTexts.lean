import ColumnIndex.Proofs.Number.DecimalTexts
import ColumnIndex.Proofs.Texts.Visible

/-!
# Plain decimal texts

A plain decimal text is digits with a sign or none in front of them and a point with more digits
behind them or none, and it may have blanks around it. It denotes a rational number, however many
digits it has. It is read as a whole number if it has no point and the number fits sixty-four bits,
and as the number of double precision nearest to it otherwise.

## Main definitions

* `PlainDecimal` — the parts of a plain decimal text.
* `PlainDecimal.IsSpelledBy` — a text with these parts.
* `PlainDecimal.toRat` — the number that is denoted.

Main statement: `PlainDecimal.parse?_numeric`.
-/
namespace ColumnIndex

/-- Blanks around visible characters are cut off. -/
theorem Text.trimChars_surrounded {before cs after : List Char} (hne : cs ≠ [])
    (hcs : ∀ c ∈ cs, IsVisible c) (hblank : ∀ c ∈ before ++ after, isBlank c) :
    trimChars (before ++ cs ++ after) = cs := by
  have hends := List.forall_mem_append.1 hblank
  have hlast := List.getLast?_eq_some_getLast hne
  refine trimChars_between hends.1 hends.2 ⟨cs.head hne, List.head?_eq_some_head hne, ?_⟩
    ⟨cs.getLast hne, hlast, ?_⟩
  · exact (hcs _ (List.head_mem hne)).not_isBlank
  · exact (hcs _ (List.getLast_mem hne)).not_isBlank

/-- What stands in front of the digits. -/
inductive SignMark
  | absent
  | plus
  | minus

namespace SignMark

/-- The characters of a sign. -/
def chars : SignMark → List Char
  | absent => []
  | plus => ['+']
  | minus => ['-']

/-- Whether a sign is that of a negative number. -/
def negative : SignMark → Bool
  | minus => true
  | _ => false

/-- Digits behind a sign. A plus says nothing. -/
theorem chars_append (s : SignMark) (cs : List Char) :
    s.chars ++ cs = '+' :: cs ∧ s.negative = false ∨
      s.chars ++ cs = if s.negative then '-' :: cs else cs := by
  cases s with
  | plus => exact .inl ⟨rfl, rfl⟩
  | absent => exact .inr rfl
  | minus => exact .inr rfl

end SignMark

/-- The parts of a plain decimal text. Without digits behind it there is no point. -/
structure PlainDecimal where
  sign : SignMark
  whole : List Char
  fraction : List Char
  whole_ne_nil : whole ≠ []
  isDigit_whole : ∀ c ∈ whole, Text.isDigit c
  isDigit_fraction : ∀ c ∈ fraction, Text.isDigit c

namespace PlainDecimal

variable (p : PlainDecimal)

/-- The characters without the sign. -/
def magnitudeChars : List Char :=
  if p.fraction = [] then p.whole else p.whole ++ '.' :: p.fraction

/-- All characters. -/
def chars : List Char := p.sign.chars ++ p.magnitudeChars

/-- The text has the parts, with blanks around them or none. -/
def IsSpelledBy (text : String) : Prop :=
  ∃ before after, (∀ c ∈ before ++ after, Text.isBlank c) ∧
    text.toList = before ++ p.chars ++ after

/-- The number that all digits spell. -/
def coefficient : Nat := Text.numberOf (p.whole ++ p.fraction)

/-- How many digits stand behind the point. -/
def places : Nat := p.fraction.length

/-- The number that is denoted, without its sign. -/
def magnitude : Rat := p.coefficient / 10 ^ p.places

/-- The number that is denoted. -/
def toRat : Rat := signed p.sign.negative p.magnitude

/-- The number of double precision nearest to the one that is denoted. -/
def nearest : Double := .ofRat p.sign.negative p.toRat

theorem magnitude_nonneg : 0 ≤ p.magnitude := by
  unfold magnitude
  positivity

theorem abs_toRat : |p.toRat| = p.magnitude := abs_signed _ p.magnitude_nonneg

/-! ## Characters -/

theorem exists_cons_magnitudeChars :
    ∃ c rest, p.magnitudeChars = c :: rest ∧ Text.isDigit c := by
  unfold magnitudeChars
  split
  · simpa using DecimalText.exists_cons_of_digits p.whole_ne_nil p.isDigit_whole []
  · exact DecimalText.exists_cons_of_digits p.whole_ne_nil p.isDigit_whole _

/-- The characters denote the number. -/
theorem reads_magnitudeChars : DecimalText.Reads p.magnitudeChars p.magnitude := by
  unfold magnitudeChars magnitude coefficient places
  split
  · rename_i hnil
    simpa [hnil] using DecimalText.reads_whole p.whole_ne_nil p.isDigit_whole
  · exact DecimalText.reads_point p.whole_ne_nil p.isDigit_whole p.isDigit_fraction

/-- There are digits, and marks between and before them. -/
theorem isDigit_or_of_mem_chars : ∀ c ∈ p.chars, Text.isDigit c ∨ c ∈ ['+', '-', '.'] := by
  intro c hc
  rcases List.mem_append.1 hc with hc | hc
  · right
    cases hsign : p.sign with
    | absent =>
      rw [hsign] at hc
      cases hc
    | plus | minus =>
      rw [hsign] at hc
      rw [List.mem_singleton.1 hc]
      decide
  · unfold magnitudeChars at hc
    split at hc
    · exact .inl (p.isDigit_whole c hc)
    · rcases List.mem_append.1 hc with hc | hc
      · exact .inl (p.isDigit_whole c hc)
      · rcases List.mem_cons.1 hc with rfl | hc
        · exact .inr (by decide)
        · exact .inl (p.isDigit_fraction c hc)

theorem isVisible_of_mem_chars : ∀ c ∈ p.chars, Text.IsVisible c := by
  intro c hc
  rcases p.isDigit_or_of_mem_chars c hc with hdigit | hmark
  · exact Text.isVisible_of_isDigit hdigit
  · simp only [List.mem_cons, List.not_mem_nil, or_false] at hmark
    rcases hmark with rfl | rfl | rfl
    all_goals decide

/-- The blanks around the characters are cut off. -/
theorem trimChars_of_isSpelledBy {text : String} (h : p.IsSpelledBy text) :
    Text.trimChars text.toList = p.chars := by
  obtain ⟨before, after, hblank, htext⟩ := h
  have hne : p.chars ≠ [] := by
    obtain ⟨c, rest, hcs, -⟩ := p.exists_cons_magnitudeChars
    rw [chars, hcs]
    simp
  rw [htext, Text.trimChars_surrounded hne p.isVisible_of_mem_chars hblank]

/-! ## Read as any number -/

/-- A plus in front of digits changes nothing. -/
theorem parse?_plus {F : FloatFormat} {c : Char} (rest : List Char) (hc : Text.isDigit c) :
    (BinaryFloat.parse? ('+' :: c :: rest) : Option (BinaryFloat F))
      = BinaryFloat.parse? (c :: rest) := by
  obtain ⟨hminus, hplus⟩ := Text.ne_sign_of_isDigit hc
  conv_rhs => unfold BinaryFloat.parse?
  split
  · rename_i heq
    exact absurd (List.cons.inj heq).1 hminus
  · rename_i heq
    exact absurd (List.cons.inj heq).1 hplus
  · rfl

theorem signed?_plus (bits : Nat) {c : Char} (rest : List Char) (hc : Text.isDigit c) :
    Text.signed? bits ('+' :: c :: rest) = Text.signed? bits (c :: rest) := by
  obtain ⟨hminus, hplus⟩ := Text.ne_sign_of_isDigit hc
  conv_rhs => unfold Text.signed?
  split
  · rename_i heq
    exact absurd (List.cons.inj heq).1 hminus
  · rename_i heq
    exact absurd (List.cons.inj heq).1 hplus
  · rfl

/-- Read as a number of double precision, a text gives the nearest one. -/
theorem parse?_double : (BinaryFloat.parse? p.chars : Option Double) = some p.nearest := by
  have hread := BinaryFloat.parse?_signed (F := .double) (by decide) (by decide) p.sign.negative
    p.reads_magnitudeChars
  obtain ⟨c, rest, hcs, hc⟩ := p.exists_cons_magnitudeChars
  rw [hcs] at hread
  rw [chars, hcs]
  rcases p.sign.chars_append (c :: rest) with ⟨happend, hsign⟩ | happend
  · rw [happend, parse?_plus rest hc, nearest, toRat]
    rwa [hsign] at hread ⊢
  · rw [happend, hread]
    rfl

/-- The whole number that the digits spell, with the sign. -/
def integer : Int := if p.sign.negative then -p.coefficient else p.coefficient

/-- The text is a whole number of sixty-four bits. -/
def IsLong : Prop := p.fraction = [] ∧ -2 ^ 63 ≤ p.integer ∧ p.integer < 2 ^ 63

instance : Decidable p.IsLong := inferInstanceAs (Decidable (_ ∧ _))

/-- Without a point the number is a whole one. -/
theorem toRat_of_fraction (h : p.fraction = []) : p.toRat = p.integer := by
  unfold toRat magnitude places integer signed
  rw [h, List.length_nil, pow_zero, div_one]
  split
  · push_cast
    rfl
  · push_cast
    rfl

/-- A text is a whole number if it has no point and the number fits. -/
theorem signed?_chars :
    Text.signed? 64 p.chars = if p.IsLong then some p.integer else none := by
  have hread := Decimal.signed?_signed 64 p.sign.negative p.exists_cons_magnitudeChars
  have hnumber : Text.number? p.magnitudeChars
      = if p.fraction = [] then some p.coefficient else none := by
    unfold magnitudeChars
    split
    · rename_i hnil
      rw [coefficient, hnil, List.append_nil, Text.number?, if_neg]
      simpa [p.whole_ne_nil] using p.isDigit_whole
    · exact Decimal.number?_point _ _
  have hsigned : Text.signed? 64 (if p.sign.negative then '-' :: p.magnitudeChars
        else p.magnitudeChars)
      = if p.IsLong then some p.integer else none := by
    rw [hread, hnumber]
    by_cases hnil : p.fraction = []
    · rw [if_pos hnil, Option.bind_some]
      simp only [IsLong, hnil, true_and]
      rfl
    · rw [if_neg hnil, if_neg fun h => hnil h.1]
      rfl
  rw [← hsigned, chars]
  obtain ⟨c, rest, hcs, hc⟩ := p.exists_cons_magnitudeChars
  rw [hcs]
  rcases p.sign.chars_append (c :: rest) with ⟨happend, hsign⟩ | happend
  · rw [happend, signed?_plus 64 rest hc, hsign]
    rfl
  · rw [happend]

/-- A text is read as the whole number that it denotes, or as the nearest number of double
precision. -/
theorem parse?_numeric {text : String} (h : p.IsSpelledBy text) :
    Numeric.parse? text
      = some (if p.IsLong then .integral p.integer else .fractional p.nearest) := by
  rw [Numeric.parse?, p.trimChars_of_isSpelledBy h, p.parse?_double, p.signed?_chars]
  by_cases hlong : p.IsLong
  · rw [if_pos hlong, if_pos hlong]
  · rw [if_neg hlong, if_neg hlong]
    rfl

end PlainDecimal

end ColumnIndex
