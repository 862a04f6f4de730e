import ColumnIndex.Number.Binary.Layout
import ColumnIndex.Proofs.Number.PlainTexts
import ColumnIndex.Proofs.Number.Shortest

/-!
# Texts of floating-point numbers

The text of a value has all digits of the shortest decimal number, wherever its point is. Read
again, at any precision, it gives the number nearest to that decimal one.

Main statement: `BinaryFloat.parse?_chars`.
-/
namespace ColumnIndex

namespace Scientific

variable {s : Scientific}

theorem isDigit_of_mem_digits {c : Char} (h : c ∈ s.digits) : Text.isDigit c :=
  Text.isDigit_of_mem_digitsOf h

theorem length_digits_pos (s : Scientific) : 0 < s.digits.length :=
  List.length_pos_of_ne_nil (Text.digitsOf_ne_nil _)

theorem numberOf_digits (s : Scientific) : Text.numberOf s.digits = s.coefficient :=
  Text.numberOf_digitsOf _

theorem toRat_eq_div {n : Nat} (h : s.exponent = -n) : s.toRat = s.coefficient / 10 ^ n := by
  rw [toRat, h, zpow_neg, zpow_natCast]
  rfl

theorem isDigit_of_mem_replicate {n : Nat} {c : Char} (h : c ∈ List.replicate n '0') :
    Text.isDigit c := by
  rw [List.eq_of_mem_replicate h]
  rfl

/-- The parts of the text of a decimal number. They denote it, and around a point stand the digits
of its coefficient, with zeros in front of them or none. -/
structure HasParts (s : Scientific) (p : PlainDecimal) : Prop where
  magnitudeChars : p.magnitudeChars = FloatLayout.plain.positionalDigits s
  magnitude : p.magnitude = s.toRat
  coefficient : p.fraction ≠ [] → p.coefficient = s.coefficient

/-- Digits behind a point whose number is the coefficient, as many as the exponent says. -/
theorem hasParts_of_fraction {p : PlainDecimal} (hfraction : p.fraction ≠ [])
    (hchars : p.whole ++ '.' :: p.fraction = FloatLayout.plain.positionalDigits s)
    (hnumber : p.coefficient = s.coefficient) (hexponent : s.exponent = -p.places) :
    s.HasParts p where
  magnitudeChars := by rw [PlainDecimal.magnitudeChars, if_neg hfraction, hchars]
  magnitude := by rw [PlainDecimal.magnitude, hnumber, toRat_eq_div hexponent]
  coefficient _ := hnumber

variable (sign : SignMark)

/-- The zeros stand between the point and the digits. -/
theorem exists_parts_of_nonpos (h : s.point ≤ 0) : ∃ p, p.sign = sign ∧ s.HasParts p := by
  have hpoint : s.point = s.digits.length + s.exponent := rfl
  have hzero : List.replicate (-s.point).toNat '0' ++ s.digits ≠ [] :=
    List.append_ne_nil_of_right_ne_nil _ (List.ne_nil_of_length_pos s.length_digits_pos)
  refine ⟨⟨sign, ['0'], List.replicate (-s.point).toNat '0' ++ s.digits, List.cons_ne_nil _ _,
    List.forall_mem_singleton.2 rfl, List.forall_mem_append.2
      ⟨fun _ => isDigit_of_mem_replicate, fun _ => isDigit_of_mem_digits⟩⟩, rfl,
    hasParts_of_fraction hzero ?_ ?_ ?_⟩
  · unfold FloatLayout.positionalDigits
    dsimp only
    rw [if_pos h]
    rfl
  · rw [PlainDecimal.coefficient, Text.numberOf_append, Text.numberOf_append,
      Text.numberOf_replicate_zero, s.numberOf_digits]
    simp [Text.numberOf, Text.digitValue]
  · rw [PlainDecimal.places, List.length_append, List.length_replicate]
    omega

/-- The point stands among the digits. -/
theorem exists_parts_of_lt (h : 0 < s.point) (hinside : s.point < s.digits.length) :
    ∃ p, p.sign = sign ∧ s.HasParts p := by
  have hpoint : s.point = s.digits.length + s.exponent := rfl
  have hwhole : s.digits.take s.point.toNat ≠ [] := by
    rw [Ne, List.take_eq_nil_iff, not_or]
    exact ⟨by omega, List.ne_nil_of_length_pos s.length_digits_pos⟩
  have hfraction : s.digits.drop s.point.toNat ≠ [] := by
    rw [Ne, List.drop_eq_nil_iff]
    omega
  refine ⟨⟨sign, s.digits.take s.point.toNat, s.digits.drop s.point.toNat, hwhole,
    fun _ hc => isDigit_of_mem_digits (List.mem_of_mem_take hc),
    fun _ hc => isDigit_of_mem_digits (List.mem_of_mem_drop hc)⟩, rfl,
    hasParts_of_fraction hfraction ?_ ?_ ?_⟩
  · unfold FloatLayout.positionalDigits
    dsimp only
    rw [if_neg (not_le.2 h), if_pos hinside]
  · rw [PlainDecimal.coefficient, List.take_append_drop, s.numberOf_digits]
  · rw [PlainDecimal.places, List.length_drop]
    omega

/-- The zeros stand behind the digits, and there is no point. -/
theorem exists_parts_of_ge (h : s.digits.length ≤ s.point) :
    ∃ p, p.sign = sign ∧ s.HasParts p := by
  have hpoint : s.point = s.digits.length + s.exponent := rfl
  have hpos := s.length_digits_pos
  obtain ⟨n, hn⟩ : ∃ n : Nat, s.exponent = n := ⟨s.exponent.toNat, by omega⟩
  have hlength : s.point.toNat - s.digits.length = n := by omega
  refine ⟨⟨sign, s.digits ++ List.replicate n '0', [],
    List.append_ne_nil_of_left_ne_nil (List.ne_nil_of_length_pos hpos) _,
    List.forall_mem_append.2 ⟨fun _ => isDigit_of_mem_digits, fun _ => isDigit_of_mem_replicate⟩,
    List.forall_mem_nil _⟩, rfl, ?_, ?_, fun hnil => absurd rfl hnil⟩
  · unfold FloatLayout.positionalDigits
    dsimp only
    rw [if_neg (by omega), if_neg (by omega), hlength]
    exact (List.append_nil _).symm
  · rw [PlainDecimal.magnitude, PlainDecimal.coefficient, List.append_nil, Text.numberOf_append,
      Text.numberOf_replicate_zero, s.numberOf_digits, List.length_replicate, toRat, hn,
      zpow_natCast, PlainDecimal.places, List.length_nil, pow_zero, div_one]
    push_cast
    ring

/-- Wherever the point is, all digits are written out. -/
theorem exists_parts (s : Scientific) : ∃ p, p.sign = sign ∧ s.HasParts p := by
  rcases le_or_gt s.point 0 with hpoint | hpoint
  · exact exists_parts_of_nonpos sign hpoint
  · rcases lt_or_ge s.point s.digits.length with hinside | hbehind
    · exact exists_parts_of_lt sign hpoint hinside
    · exact exists_parts_of_ge sign hbehind

end Scientific

namespace BinaryFloat

variable {F G : FloatFormat}

/-- The decimal number whose digits are written for a finite number, without its sign. -/
def writtenRat (x : BinaryFloat F) : Rat :=
  if x.isZero then 0 else (F.shortest .up x.code).toRat

theorem writtenRat_nonneg (x : BinaryFloat F) : 0 ≤ x.writtenRat := by
  unfold writtenRat Scientific.toRat
  split
  · exact le_rfl
  · positivity

/-- What is written is rounded to the number again. -/
theorem rounds_writtenRat (hf : F.fractionBits ≠ 0) (x : BinaryFloat F) :
    F.Rounds x.writtenRat x.code := by
  unfold writtenRat
  split
  · rename_i hzero
    rw [isZero, beq_iff_eq] at hzero
    rw [hzero, ← F.magnitude_zero]
    exact FloatFormat.Rounds.magnitude 0
  · exact FloatFormat.rounds_shortest hf .up x.code

/-- The parts of the text of a finite number: a minus or no sign, and digits that denote the
shortest decimal number. -/
theorem exists_parts {x : BinaryFloat F} (hx : x.isFinite) :
    ∃ p : PlainDecimal, p.sign = (if x.negative then .minus else .absent) ∧
      x.chars .plain = p.chars ∧ p.magnitude = x.writtenRat ∧
        (p.fraction ≠ [] → x.code ≠ 0 ∧ p.coefficient = (F.shortest .up x.code).coefficient) := by
  have hsign : (if x.negative then ['-'] else [])
      = (if x.negative then SignMark.minus else .absent).chars := by
    cases x.negative with
    | true => rfl
    | false => rfl
  unfold chars writtenRat
  dsimp only
  rw [not_isNaN_of_isFinite hx, not_isInfinite_of_isFinite hx, if_neg Bool.false_ne_true,
    if_neg Bool.false_ne_true, hsign]
  by_cases hzero : x.isZero
  · rw [if_pos hzero, if_pos hzero]
    exact ⟨⟨_, ['0'], [], List.cons_ne_nil _ _, List.forall_mem_singleton.2 rfl,
      List.forall_mem_nil _⟩, rfl, rfl, zero_div _, fun hnil => absurd rfl hnil⟩
  · rw [if_neg hzero, if_neg hzero]
    obtain ⟨p, hp, hparts⟩ := Scientific.exists_parts (if x.negative then .minus else .absent)
      (F.shortest .up x.code)
    refine ⟨p, hp, ?_, hparts.magnitude, fun hfraction => ⟨?_, hparts.coefficient hfraction⟩⟩
    swap
    · simpa [isZero] using hzero
    rw [PlainDecimal.chars, hp, hparts.magnitudeChars]
    rfl

/-- The digits of a finite number behind its sign. -/
theorem exists_chars_eq {x : BinaryFloat F} (hx : x.isFinite) :
    ∃ cs, x.chars .plain = (if x.negative then '-' :: cs else cs) ∧
      DecimalText.Reads cs x.writtenRat := by
  obtain ⟨p, hsign, hchars, hmagnitude, -⟩ := exists_parts hx
  refine ⟨p.magnitudeChars, ?_, hmagnitude ▸ p.reads_magnitudeChars⟩
  rw [hchars, PlainDecimal.chars, hsign]
  cases x.negative with
  | true => rfl
  | false => rfl

/-- A finite number is read from its text as the number nearest to the shortest decimal one. -/
theorem parse?_chars (hg : G.fractionBits ≠ 0) (he : G.exponentBits ≠ 0) {x : BinaryFloat F}
    (hx : x.isFinite) :
    (parse? (x.chars .plain) : Option (BinaryFloat G))
      = some (ofRat x.negative (signed x.negative x.writtenRat)) := by
  obtain ⟨cs, hcs, hread⟩ := exists_chars_eq hx
  rw [hcs]
  exact parse?_signed hg he x.negative hread

end BinaryFloat

end ColumnIndex
