import ColumnIndex.Mapper.Coercion
import ColumnIndex.Proofs.Number.Reading
import ColumnIndex.Proofs.Texts.Visible

/-!
# Texts of decimal numbers

The text of a decimal number has all its digits. Read as a decimal number it gives the number back,
but for the sign of zero. Read as any number it gives a whole number if there is no point, and
otherwise the nearest one of double precision.

Main statements: `Decimal.parse?_text`, `Numeric.parse?_text`.
-/
namespace ColumnIndex

namespace Decimal

variable {d : Decimal}

/-- The number of double precision nearest to a decimal one. -/
def nearest (d : Decimal) : Double := .ofRat d.negative d.toRat

theorem toRat_eq_signed (d : Decimal) :
    d.toRat = signed d.negative (d.coefficient / 10 ^ d.scale) := by
  unfold toRat signed
  split
  · push_cast
    ring
  · push_cast
    rfl

/-! ## Digits -/

theorem wholeDigits_ne_nil (d : Decimal) : d.wholeDigits ≠ [] := Text.digitsOf_ne_nil _

theorem isDigit_of_mem_wholeDigits {c : Char} (h : c ∈ d.wholeDigits) : Text.isDigit c :=
  Text.isDigit_of_mem_digitsOf h

theorem isDigit_of_mem_fractionDigits {c : Char} (h : c ∈ d.fractionDigits) :
    Text.isDigit c := by
  unfold fractionDigits at h
  split at h
  · cases h
  · exact Text.isDigit_of_mem_paddedDigits h

theorem length_fractionDigits (d : Decimal) : d.fractionDigits.length = d.scale := by
  unfold fractionDigits
  split
  · rename_i h
    rw [h]
    rfl
  · rename_i h
    apply Text.length_paddedDigits (Nat.pos_of_ne_zero h)
    exact Nat.mod_lt _ (Nat.pow_pos (by decide))

/-- The digits spell the coefficient. -/
theorem numberOf_digits (d : Decimal) :
    Text.numberOf (d.wholeDigits ++ d.fractionDigits) = d.coefficient := by
  have hfraction : Text.numberOf d.fractionDigits = d.coefficient % 10 ^ d.scale := by
    unfold fractionDigits
    split
    · rename_i h
      rw [h, Nat.pow_zero, Nat.mod_one]
      rfl
    · exact Text.numberOf_paddedDigits _ _
  rw [Text.numberOf_append, length_fractionDigits, hfraction, wholeDigits, Text.numberOf_digitsOf,
    Nat.div_add_mod']

/-- The characters of a magnitude denote it. -/
theorem reads_magnitudeChars (d : Decimal) :
    DecimalText.Reads d.magnitudeChars (d.coefficient / 10 ^ d.scale) := by
  have hnumber := d.numberOf_digits
  have hwhole : ∀ c ∈ d.wholeDigits, Text.isDigit c := fun _ => isDigit_of_mem_wholeDigits
  unfold magnitudeChars
  split
  · rename_i hs
    have hnil : d.fractionDigits = [] :=
      List.eq_nil_of_length_eq_zero (d.length_fractionDigits.trans hs)
    rw [hnil, List.append_nil] at hnumber
    rw [hs, pow_zero, div_one, ← hnumber]
    exact DecimalText.reads_whole d.wholeDigits_ne_nil hwhole
  · rw [← hnumber, ← d.length_fractionDigits]
    exact DecimalText.reads_point d.wholeDigits_ne_nil hwhole
      fun _ => isDigit_of_mem_fractionDigits

theorem isVisible_of_mem_text {c : Char} (h : c ∈ d.text.toList) : Text.IsVisible c := by
  have hmagnitude : ∀ c ∈ d.magnitudeChars, Text.IsVisible c := by
    intro c hc
    unfold magnitudeChars at hc
    split at hc
    · exact Text.isVisible_of_isDigit (isDigit_of_mem_wholeDigits hc)
    · rcases List.mem_append.1 hc with hc | hc
      · exact Text.isVisible_of_isDigit (isDigit_of_mem_wholeDigits hc)
      · rcases List.mem_cons.1 hc with rfl | hc
        · decide
        · exact Text.isVisible_of_isDigit (isDigit_of_mem_fractionDigits hc)
  rw [text, String.toList_ofList] at h
  split at h
  · rcases List.mem_cons.1 h with rfl | h
    · decide
    · exact hmagnitude c h
  · exact hmagnitude c h

/-! ## Read as a decimal number -/

/-- One more digit moves the others to the left. -/
theorem shifted_numberOf_cons (coefficient : Nat) (c : Char) (ds : List Char) :
    coefficient * 10 ^ (c :: ds).length + Text.numberOf (c :: ds)
      = (10 * coefficient + Text.digitValue c) * 10 ^ ds.length + Text.numberOf ds := by
  have h := Text.numberOf_append [c] ds
  have hone : Text.numberOf [c] = Text.digitValue c := by simp [Text.numberOf]
  rw [List.singleton_append, hone] at h
  rw [h, List.length_cons, Nat.pow_succ]
  ring

/-- A coefficient fits if the digits behind it fit too. -/
theorem not_le_of_shifted {coefficient : Nat} {ds : List Char}
    (h : coefficient * 10 ^ ds.length + Text.numberOf ds < 2 ^ 96) : ¬ 2 ^ 96 ≤ coefficient := by
  have hpow : 0 < 10 ^ ds.length := Nat.pow_pos (by decide)
  have := Nat.le_mul_of_pos_right coefficient hpow
  omega

/-- Digits before the point are read one by one. -/
theorem plainFrom_whole {negative seen : Bool} {coefficient scale : Nat} {ds rest : List Char}
    (hds : ∀ c ∈ ds, Text.isDigit c)
    (hlt : coefficient * 10 ^ ds.length + Text.numberOf ds < 2 ^ 96) :
    plainFrom negative false seen coefficient scale (ds ++ rest)
      = plainFrom negative false (seen || !ds.isEmpty)
          (coefficient * 10 ^ ds.length + Text.numberOf ds) scale rest := by
  induction ds generalizing seen coefficient with
  | nil => simp
  | cons c ds ih =>
    obtain ⟨hc, hds⟩ := List.forall_mem_cons.1 hds
    rw [shifted_numberOf_cons] at hlt ⊢
    have hfits := not_le_of_shifted hlt
    rw [List.cons_append, plainFrom]
    simp only [hc, if_true, hfits, if_false, Bool.false_and, Bool.false_eq_true]
    rw [ih hds hlt]
    simp

/-- Digits after the point are read one by one, as many as there may be. -/
theorem plainFrom_fraction {negative : Bool} {coefficient scale : Nat} {ds : List Char}
    (hds : ∀ c ∈ ds, Text.isDigit c)
    (hlt : coefficient * 10 ^ ds.length + Text.numberOf ds < 2 ^ 96)
    (hscale : scale + ds.length ≤ 28) :
    plainFrom negative true true coefficient scale ds
      = ofParts? negative (coefficient * 10 ^ ds.length + Text.numberOf ds)
        (scale + ds.length) := by
  induction ds generalizing coefficient scale with
  | nil => simp [plainFrom]
  | cons c ds ih =>
    obtain ⟨hc, hds⟩ := List.forall_mem_cons.1 hds
    rw [shifted_numberOf_cons] at hlt ⊢
    have hfits := not_le_of_shifted hlt
    rw [List.length_cons] at hscale
    rw [plainFrom]
    simp only [hc, if_true, hfits, if_false, Bool.true_and, decide_eq_true_eq]
    by_cases hlast : 28 ≤ scale + 1
    · obtain rfl : ds = [] := List.eq_nil_of_length_eq_zero (by omega)
      rw [if_pos hlast]
      simp [cutOff?]
    · rw [if_neg hlast, ih hds hlt (by omega), List.length_cons]
      congr 1
      omega

/-- The digits of a number are read as its parts. -/
theorem plainFrom_magnitudeChars (d : Decimal) (negative : Bool) :
    plainFrom negative false false 0 0 d.magnitudeChars
      = ofParts? negative d.coefficient d.scale := by
  have hbound := d.coefficient_lt
  have hnumber := d.numberOf_digits
  rw [Text.numberOf_append, length_fractionDigits] at hnumber
  have hwhole : ∀ rest, plainFrom negative false false 0 0 (d.wholeDigits ++ rest)
      = plainFrom negative false true (Text.numberOf d.wholeDigits) 0 rest := by
    intro rest
    have hpow : 0 < 10 ^ d.scale := Nat.pow_pos (by decide)
    have hle := Nat.le_mul_of_pos_right (Text.numberOf d.wholeDigits) hpow
    have hseen : d.wholeDigits.isEmpty = false :=
      List.isEmpty_eq_false_iff.2 d.wholeDigits_ne_nil
    rw [plainFrom_whole (fun _ => isDigit_of_mem_wholeDigits) (by omega), Nat.zero_mul,
      Nat.zero_add, hseen]
    rfl
  unfold magnitudeChars
  split
  · rename_i hzero
    have hnil : d.fractionDigits = [] :=
      List.eq_nil_of_length_eq_zero (d.length_fractionDigits.trans hzero)
    rw [hzero, hnil, Nat.pow_zero, Nat.mul_one, Text.numberOf_nil, Nat.add_zero] at hnumber
    rw [← List.append_nil d.wholeDigits, hwhole, hnumber, hzero]
    rfl
  · have hpoint : ∀ n, plainFrom negative false true n 0 ('.' :: d.fractionDigits)
        = plainFrom negative true true n 0 d.fractionDigits := by
      intro n
      rw [plainFrom, if_neg (by decide), if_pos ⟨rfl, rfl⟩]
    have hscale := d.scale_le
    rw [hwhole, hpoint, plainFrom_fraction (fun _ => isDigit_of_mem_fractionDigits),
      length_fractionDigits, hnumber, Nat.zero_add]
    · rw [length_fractionDigits, hnumber]
      exact hbound
    · rw [length_fractionDigits, Nat.zero_add]
      exact hscale

/-- The characters of a number are those of its magnitude behind a sign or none. -/
theorem toList_text (d : Decimal) :
    d.text.toList = if d.negative then '-' :: d.magnitudeChars else d.magnitudeChars := by
  rw [text, String.toList_ofList]

theorem trimChars_text (d : Decimal) : Text.trimChars d.text.toList = d.text.toList :=
  Text.trimChars_of_visible fun _ => isVisible_of_mem_text

/-- What is left of the number when its text is read: all but the sign of zero. -/
theorem parse?_text (d : Decimal) :
    parse? d.text = some { d with negative := d.negative && d.coefficient != 0 } := by
  have hparts : ∀ negative, ofParts? negative d.coefficient d.scale
      = some { d with negative } := by
    intro negative
    rw [ofParts?, dif_pos ⟨d.coefficient_lt, d.scale_le⟩]
  have hplain : plain? d.text.toList
      = some { d with negative := d.negative && d.coefficient != 0 } := by
    rw [toList_text]
    unfold plain?
    cases hneg : d.negative with
    | true =>
      rw [if_pos rfl]
      simp only [plainFrom_magnitudeChars, hparts, Option.map_some]
      by_cases hzero : d.coefficient = 0
      · simp [hzero]
      · simp [hzero]
    | false =>
      obtain ⟨c, rest, hcs, hc⟩ := d.reads_magnitudeChars.first
      obtain ⟨hminus, hplus⟩ := Text.ne_sign_of_isDigit hc
      have hread : plainFrom false false false 0 0 (c :: rest)
          = some { d with negative := false } := by
        rw [← hcs, plainFrom_magnitudeChars, hparts]
      rw [if_neg (by decide), hcs]
      dsimp only
      split
      · rename_i heq
        exact absurd (List.cons.inj heq).1 hminus
      · rename_i heq
        exact absurd (List.cons.inj heq).1 hplus
      · rw [hread]
        simp
  rw [parse?, trimChars_text, hplain]
  rfl

/-! ## Read as any number -/

/-- A point is no digit. -/
theorem number?_point (whole fraction : List Char) :
    Text.number? (whole ++ '.' :: fraction) = none := by
  have hpoint : Text.isDigit '.' = false := rfl
  simp [Text.number?, hpoint]

/-- Digits behind a sign or none are read as a whole number, if it fits its bits. -/
theorem signed?_signed (bits : Nat) (negative : Bool) {cs : List Char}
    (hfirst : ∃ c rest, cs = c :: rest ∧ Text.isDigit c) :
    Text.signed? bits (if negative then '-' :: cs else cs)
      = (Text.number? cs).bind fun n =>
          let i : Int := if negative then -n else n
          if -2 ^ (bits - 1) ≤ i ∧ i < 2 ^ (bits - 1) then some i else none := by
  have hlimit : (2 : Int) ^ (bits - 1) = (2 ^ (bits - 1) : Nat) := by push_cast; rfl
  have hpos := Nat.two_pow_pos (bits - 1)
  cases negative with
  | true =>
    rw [if_pos rfl, Text.signed?, hlimit]
    cases Text.number? cs with
    | none => rfl
    | some n =>
      generalize 2 ^ (bits - 1) = limit at hpos
      by_cases hn : n ≤ limit
      · have hrange : -(limit : Int) ≤ -n ∧ -(n : Int) < limit := by omega
        rw [Option.filter_some_pos (by simpa using hn), Option.bind_some, if_pos rfl,
          if_pos hrange]
        rfl
      · have hrange : ¬ (-(limit : Int) ≤ -n ∧ -(n : Int) < limit) := by omega
        rw [Option.filter_some_neg (by simpa using hn), Option.bind_some, if_pos rfl,
          if_neg hrange]
        rfl
  | false =>
    obtain ⟨c, rest, rfl, hc⟩ := hfirst
    obtain ⟨hminus, hplus⟩ := Text.ne_sign_of_isDigit hc
    rw [if_neg (by decide), hlimit]
    unfold Text.signed?
    split
    · rename_i heq
      exact absurd (List.cons.inj heq).1 hminus
    · rename_i heq
      exact absurd (List.cons.inj heq).1 hplus
    · cases Text.number? (c :: rest) with
      | none => rfl
      | some n =>
        generalize 2 ^ (bits - 1) = limit at hpos
        by_cases hn : n < limit
        · have hrange : -(limit : Int) ≤ n ∧ (n : Int) < limit := by omega
          rw [Option.filter_some_pos (by simpa using hn), Option.bind_some,
            if_neg Bool.false_ne_true, if_pos hrange]
          rfl
        · have hrange : ¬ (-(limit : Int) ≤ n ∧ (n : Int) < limit) := by omega
          rw [Option.filter_some_neg (by simpa using hn), Option.bind_some,
            if_neg Bool.false_ne_true, if_neg hrange]
          rfl

/-- A text is a whole number if it has no point and the number fits. -/
theorem signed?_text (d : Decimal) :
    Text.signed? 64 d.text.toList
      = if d.scale = 0 ∧ -2 ^ 63 ≤ d.truncate ∧ d.truncate < 2 ^ 63 then some d.truncate
        else none := by
  rw [toList_text, signed?_signed 64 d.negative d.reads_magnitudeChars.first]
  by_cases hs : d.scale = 0
  · have hnumber : Text.number? d.magnitudeChars = some d.coefficient := by
      have hdigits : ∀ c ∈ d.wholeDigits, Text.isDigit c := fun _ => isDigit_of_mem_wholeDigits
      have hvalue : Text.numberOf d.wholeDigits = d.coefficient := by
        rw [wholeDigits, Text.numberOf_digitsOf, hs, Nat.pow_zero, Nat.div_one]
      rw [magnitudeChars, if_pos hs, Text.number?, hvalue]
      simpa [d.wholeDigits_ne_nil] using hdigits
    have htruncate : d.truncate = if d.negative then -(d.coefficient : Int) else d.coefficient := by
      rw [truncate, hs, Nat.pow_zero, Nat.div_one]
    rw [hnumber, Option.bind_some, ← htruncate]
    simp only [hs, true_and]
  · have hnone : Text.number? d.magnitudeChars = none := by
      rw [magnitudeChars, if_neg hs, number?_point]
    rw [hnone, if_neg (fun h => hs h.1)]
    rfl

/-- The text is read as the number of double precision nearest to the decimal one. -/
theorem parse?_text_double (d : Decimal) :
    (BinaryFloat.parse? d.text.toList : Option Double) = some d.nearest := by
  rw [toList_text, BinaryFloat.parse?_signed (by decide) (by decide) d.negative
    d.reads_magnitudeChars, ← toRat_eq_signed]
  rfl

end Decimal

/-- A decimal number is read back from its text as a whole number, or as the nearest one of double
precision. -/
theorem Numeric.parse?_text (d : Decimal) :
    Numeric.parse? d.text
      = some (if d.scale = 0 ∧ -2 ^ 63 ≤ d.truncate ∧ d.truncate < 2 ^ 63 then
          integral d.truncate else fractional d.nearest) := by
  rw [Numeric.parse?, d.trimChars_text, d.parse?_text_double, d.signed?_text]
  by_cases h : d.scale = 0 ∧ -2 ^ 63 ≤ d.truncate ∧ d.truncate < 2 ^ 63
  · rw [if_pos h, if_pos h]
  · rw [if_neg h, if_neg h]
    rfl

end ColumnIndex
