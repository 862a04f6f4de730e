import ColumnIndex.Proofs.Json.TreeTokens
import ColumnIndex.Proofs.Number.FloatTexts

/-!
# Tokens of fractional numbers

In JSON a floating-point number has a point or an exponent, so it is read as a fractional one. All
its digits count as long as they fit sixty-four bits: the significand and the power of ten that are
read make the decimal number that was written.

## Main definitions

* `Json.Spells` — the significand and the power of ten that characters are read as.
* `FloatLayout.spelled` — the significand and the power of ten that a layout writes.

Main statements: `Json.spells_digits`, `Json.Spells.tokens_eq`.
-/
namespace ColumnIndex

/-- The significand and the power of ten that the digits of a number are read as: those of the
number, unless it is whole and written out, for then a zero stands behind its point. -/
def FloatLayout.spelled (layout : FloatLayout) (s : Scientific) : Scientific :=
  if layout.isPositional (s.point - 1) ∧ s.digits.length ≤ s.point then
    ⟨s.coefficient * 10 ^ (s.point.toNat - s.digits.length + 1), -1⟩
  else s

namespace Json

open Outcome

/-- Behind either sign the characters are read as the significand times the power of ten. -/
def Spells (cs : List Char) (s : Scientific) : Prop :=
  ∀ negative, numberToken negative cs
    = .ok (.plain (fractional negative s.coefficient s.exponent), [])

/-! ## The parts of a number -/

section Parts

variable {whole fraction digits rest : List Char}

/-- Digits end where something else follows. -/
theorem takeWhile_isDigit_eq (hdigits : ∀ c ∈ digits, Text.isDigit c)
    (hrest : ∀ c ∈ rest.head?, Text.isDigit c = false) :
    (digits ++ rest).takeWhile Text.isDigit = digits := by
  rw [List.takeWhile_append_of_pos hdigits]
  cases rest with
  | nil => exact List.append_nil _
  | cons c rest => rw [List.takeWhile_cons_of_neg (by simp [hrest c rfl]), List.append_nil]

/-- The digits before the point are no zero with other digits behind it. -/
def StartsWell (whole : List Char) : Prop := ∀ c more, whole ≠ '0' :: c :: more

theorem startsWell_of_head? (h : whole.head? ≠ some '0') : StartsWell whole := by
  rintro c more rfl
  exact h rfl

theorem wholePart_digits (hne : whole ≠ []) (hwhole : ∀ c ∈ whole, Text.isDigit c)
    (hstart : StartsWell whole) (hrest : ∀ c ∈ rest.head?, Text.isDigit c = false) :
    wholePart (whole ++ rest) = .ok (whole, rest) := by
  rw [wholePart_eq_ok]
  exact ⟨takeWhile_isDigit_eq hwhole hrest, List.drop_left, hne, hstart⟩

theorem fractionPart_digits (hne : fraction ≠ []) (hfraction : ∀ c ∈ fraction, Text.isDigit c)
    (hrest : ∀ c ∈ rest.head?, Text.isDigit c = false) :
    fractionPart ('.' :: (fraction ++ rest)) = .ok (some fraction, rest) := by
  simp only [fractionPart, takeWhile_isDigit_eq hfraction hrest]
  rw [if_neg (by simpa using hne), List.drop_left]

/-- The sign of an exponent in a layout. -/
def signChars (layout : FloatLayout) (e : Int) : List Char :=
  if e < 0 then ['-'] else if layout.plusSign then ['+'] else []

theorem exponentSign_signChars (layout : FloatLayout) (e : Int) {c : Char} {cs : List Char}
    (hc : Text.isDigit c) :
    exponentSign (signChars layout e ++ c :: cs) = (decide (e < 0), c :: cs) := by
  obtain ⟨hminus, hplus⟩ := Text.ne_sign_of_isDigit hc
  unfold signChars
  by_cases hneg : e < 0
  · simp [hneg, exponentSign]
  · rw [if_neg hneg, decide_eq_false hneg]
    cases layout.plusSign with
    | true => rfl
    | false => simp [exponentSign, hminus, hplus]

theorem exponentPart_digits (layout : FloatLayout) (e : Int) :
    exponentPart ('e' :: (signChars layout e ++ Text.digitsOf e.natAbs))
      = .ok (some (decide (e < 0), Text.digitsOf e.natAbs), []) := by
  have hdigits : ∀ c ∈ Text.digitsOf e.natAbs, Text.isDigit c :=
    fun _ => Text.isDigit_of_mem_digitsOf
  have htake := List.takeWhile_eq_self_iff.2 hdigits
  obtain ⟨c, cs, hcs⟩ := List.exists_cons_of_ne_nil (Text.digitsOf_ne_nil e.natAbs)
  rw [hcs] at hdigits htake ⊢
  rw [exponentPart_cons, if_pos (.inl rfl),
    exponentSign_signChars layout e (hdigits c List.mem_cons_self)]
  simp [htake]

end Parts

/-! ## The value of the parts -/

section Value

variable {whole fraction : List Char}

/-- The digits before the point and those behind it make one significand. -/
theorem leadingDigits_append (h : Text.numberOf (whole ++ fraction) < 2 ^ 64) :
    leadingDigits 0 whole = (Text.numberOf whole, []) ∧
      leadingDigits (Text.numberOf whole) fraction
        = (Text.numberOf (whole ++ fraction), []) := by
  have hfold : Text.numberOf (whole ++ fraction)
      = fraction.foldl (fun n c => 10 * n + Text.digitValue c) (Text.numberOf whole) :=
    List.foldl_append
  have hle := le_foldl_digits (Text.numberOf whole) fraction
  rw [← hfold] at hle
  exact ⟨leadingDigits_eq (hle.trans_lt h), by rw [leadingDigits_eq (hfold ▸ h), hfold]⟩

theorem numberValue_point (negative : Bool) (h : Text.numberOf (whole ++ fraction) < 2 ^ 64) :
    numberValue negative whole (some fraction) none
      = fractional negative (Text.numberOf (whole ++ fraction)) (-fraction.length) := by
  obtain ⟨hwhole, hfraction⟩ := leadingDigits_append h
  simp [numberValue, hwhole, hfraction]

theorem numberValue_exponent (negative : Bool) (whole : List Char)
    (fraction : Option (List Char)) {e : Int}
    (h : Text.numberOf (whole ++ fraction.getD []) < 2 ^ 64) (he : e.natAbs < 2 ^ 31) :
    numberValue negative whole fraction (some (decide (e < 0), Text.digitsOf e.natAbs))
      = fractional negative (Text.numberOf (whole ++ fraction.getD []))
          (e - (fraction.getD []).length) := by
  obtain ⟨hwhole, hfraction⟩ := leadingDigits_append h
  have hexponent : (if e < 0 then -((fraction.getD []).length : Int) - e.natAbs
      else -((fraction.getD []).length : Int) + e.natAbs) = e - (fraction.getD []).length := by
    split_ifs with hneg
    · omega
    · omega
  cases fraction with
  | none =>
    simp only [Option.getD_none] at hwhole hfraction hexponent ⊢
    simp [numberValue, hwhole, hfraction, Text.numberOf_digitsOf, he] at hexponent ⊢
    rw [hexponent]
  | some fraction =>
    simp only [Option.getD_some] at hwhole hfraction hexponent ⊢
    simp [numberValue, hwhole, hfraction, Text.numberOf_digitsOf, he] at hexponent ⊢
    rw [hexponent]

end Value

/-! ## Forms of numbers -/

section Forms

variable {whole fraction : List Char}

/-- Digits with a point among them. -/
theorem spells_point (whole fraction : List Char) (hne : whole ≠ [])
    (hwhole : ∀ c ∈ whole, Text.isDigit c)
    (hstart : StartsWell whole) (hne' : fraction ≠ [])
    (hfraction : ∀ c ∈ fraction, Text.isDigit c)
    (hfits : Text.numberOf (whole ++ fraction) < 2 ^ 64) :
    Spells (whole ++ '.' :: fraction) ⟨Text.numberOf (whole ++ fraction), -fraction.length⟩ := by
  intro negative
  have hpoint : ∀ c ∈ ('.' :: fraction).head?, Text.isDigit c = false := by
    intro c hc
    cases hc
    rfl
  have hparts : fractionPart ('.' :: (fraction ++ [])) = .ok (some fraction, []) :=
    fractionPart_digits hne' hfraction (by simp)
  rw [List.append_nil] at hparts
  rw [numberToken, wholePart_digits hne hwhole hstart hpoint]
  simp only [ok_bind, hparts]
  change Except.ok (Token.plain (numberValue negative whole (some fraction) none), []) = _
  rw [numberValue_point negative hfits]

/-- A fraction digit behind the point, or no point at all, and an exponent. -/
theorem spells_exponent (layout : FloatLayout) {c : Char} {e : Int} (hc : Text.isDigit c)
    (hfraction : ∀ d ∈ fraction, Text.isDigit d)
    (hfits : Text.numberOf (c :: fraction) < 2 ^ 64) (he : e.natAbs < 2 ^ 31) :
    Spells
      (c :: (if fraction = [] then [] else '.' :: fraction)
        ++ 'e' :: (signChars layout e ++ Text.digitsOf e.natAbs))
      ⟨Text.numberOf (c :: fraction), e - fraction.length⟩ := by
  intro negative
  have hmark : ∀ d ∈ ('e' :: (signChars layout e ++ Text.digitsOf e.natAbs)).head?,
      Text.isDigit d = false := by
    intro d hd
    cases hd
    rfl
  have hstart : StartsWell [c] := by
    intro d more h
    cases h
  have hwhole : ∀ d ∈ [c], Text.isDigit d := List.forall_mem_singleton.2 hc
  by_cases hnil : fraction = []
  · subst hnil
    have hpart := wholePart_digits (List.cons_ne_nil c []) hwhole hstart hmark
    have hvalue := numberValue_exponent negative [c] none hfits he
    have hnone : fractionPart ('e' :: (signChars layout e ++ Text.digitsOf e.natAbs))
        = .ok (none, 'e' :: (signChars layout e ++ Text.digitsOf e.natAbs)) := rfl
    rw [if_pos rfl, numberToken, hpart]
    simp only [ok_bind, hnone, exponentPart_digits]
    exact congrArg (fun v => Except.ok (Token.plain v, [])) hvalue
  · have hpoint : ∀ d ∈ ('.' :: (fraction
        ++ 'e' :: (signChars layout e ++ Text.digitsOf e.natAbs))).head?,
        Text.isDigit d = false := by
      intro d hd
      cases hd
      rfl
    have hpart := wholePart_digits (List.cons_ne_nil c []) hwhole hstart hpoint
    have hvalue := numberValue_exponent negative [c] (some fraction) hfits he
    rw [if_neg hnil, numberToken, List.cons_append, List.cons_append]
    rw [List.singleton_append] at hpart
    rw [hpart]
    simp only [ok_bind, fractionPart_digits hnil hfraction hmark, exponentPart_digits]
    exact congrArg (fun v => Except.ok (Token.plain v, [])) hvalue

end Forms

/-! ## Written digits -/

section Written

variable {layout : FloatLayout} {s : Scientific}

/-- What is read is the decimal number that was written. -/
theorem toRat_spelled (layout : FloatLayout) (s : Scientific) :
    (layout.spelled s).toRat = s.toRat := by
  have hlength : s.point = s.digits.length + s.exponent := rfl
  unfold FloatLayout.spelled
  split
  · rename_i hwhole
    obtain ⟨n, hn⟩ : ∃ n : Nat, s.exponent = n := ⟨s.exponent.toNat, by omega⟩
    have hzeros : s.point.toNat - s.digits.length = n := by omega
    rw [Scientific.toRat, Scientific.toRat, hzeros, hn, zpow_natCast]
    push_cast
    rw [pow_succ, zpow_neg_one]
    ring
  · rfl

/-- The significand fits sixty-four bits if the coefficient does and not too many digits stand
before the point of a whole number. -/
theorem coefficient_spelled_lt {least most : Int}
    (hpositional : layout.positional = some (least, most)) (hmost : most ≤ 17)
    (hs : s.coefficient ≠ 0) (hfits : s.coefficient < 2 ^ 64) :
    (layout.spelled s).coefficient < 2 ^ 64 := by
  unfold FloatLayout.spelled
  split
  · rename_i hwhole
    simp only [FloatLayout.isPositional, hpositional, Bool.and_eq_true, decide_eq_true_eq]
      at hwhole
    have hlimit : s.coefficient < 10 ^ s.digits.length := (Text.pow_length_digitsOf_le hs).2
    calc s.coefficient * 10 ^ (s.point.toNat - s.digits.length + 1)
        < 10 ^ s.digits.length * 10 ^ (s.point.toNat - s.digits.length + 1) := by gcongr
      _ = 10 ^ (s.point.toNat + 1) := by
          rw [← pow_add]
          congr 1
          omega
      _ ≤ 10 ^ 19 := Nat.pow_le_pow_right (by decide) (by omega)
      _ < 2 ^ 64 := by norm_num
  · exact hfits

theorem startsWell_append (hs : s.coefficient ≠ 0) (rest : List Char) :
    StartsWell (s.digits ++ rest) := by
  apply startsWell_of_head?
  obtain ⟨c, cs, hcs⟩ := List.exists_cons_of_ne_nil (Text.digitsOf_ne_nil s.coefficient)
  have hhead := Text.head?_digitsOf_ne hs
  rw [hcs] at hhead
  rw [Scientific.digits, hcs]
  exact hhead

theorem startsWell_take (hs : s.coefficient ≠ 0) (n : Nat) : StartsWell (s.digits.take n) := by
  intro c more h
  have hall := startsWell_append hs (s := s) []
  rw [List.append_nil, ← List.take_append_drop n s.digits, h] at hall
  exact hall c _ rfl

theorem isDigit_of_mem_replicate {n : Nat} {c : Char} (h : c ∈ List.replicate n '0') :
    Text.isDigit c := by
  rw [List.eq_of_mem_replicate h]
  rfl

/-- All digits behind the point, with zeros before them. -/
theorem spells_before (hfits : s.coefficient < 2 ^ 64) (hpoint : s.point ≤ 0) :
    Spells ('0' :: '.' :: List.replicate (-s.point).toNat '0' ++ s.digits) s := by
  have hlength : s.point = s.digits.length + s.exponent := rfl
  have hnumber : Text.numberOf (['0'] ++ (List.replicate (-s.point).toNat '0' ++ s.digits))
      = s.coefficient := by
    rw [Text.numberOf_append, Text.numberOf_append, Text.numberOf_replicate_zero,
      s.numberOf_digits]
    simp [Text.numberOf, Text.digitValue]
  have hspells := spells_point ['0'] (List.replicate (-s.point).toNat '0' ++ s.digits)
    (List.cons_ne_nil '0' [])
    (List.forall_mem_singleton.2 rfl) (by intro c more h; cases h)
    (List.append_ne_nil_of_right_ne_nil _ (List.ne_nil_of_length_pos s.length_digits_pos))
    (fun c hc => (List.mem_append.1 hc).elim isDigit_of_mem_replicate
      Scientific.isDigit_of_mem_digits) (by rwa [hnumber])
  have hexponent : (-(List.replicate (-s.point).toNat '0' ++ s.digits).length : Int)
      = s.exponent := by
    rw [List.length_append, List.length_replicate]
    omega
  rw [hnumber, hexponent] at hspells
  exact hspells

/-- A point among the digits. -/
theorem spells_inside (hs : s.coefficient ≠ 0) (hfits : s.coefficient < 2 ^ 64)
    (hpoint : 0 < s.point) (hinside : s.point < s.digits.length) :
    Spells (s.digits.take s.point.toNat ++ '.' :: s.digits.drop s.point.toNat) s := by
  have hlength : s.point = s.digits.length + s.exponent := rfl
  have hne : s.digits.take s.point.toNat ≠ [] := by
    rw [Ne, List.take_eq_nil_iff, not_or]
    exact ⟨by omega, List.ne_nil_of_length_pos s.length_digits_pos⟩
  have hne' : s.digits.drop s.point.toNat ≠ [] := by
    rw [Ne, List.drop_eq_nil_iff]
    omega
  have hspells := spells_point _ _ hne
    (fun c hc => Scientific.isDigit_of_mem_digits (List.mem_of_mem_take hc))
    (startsWell_take hs _) hne'
    (fun c hc => Scientific.isDigit_of_mem_digits (List.mem_of_mem_drop hc))
    (by rwa [List.take_append_drop, s.numberOf_digits])
  have hexponent : (-(s.digits.drop s.point.toNat).length : Int) = s.exponent := by
    rw [List.length_drop]
    omega
  rw [List.take_append_drop, s.numberOf_digits, hexponent] at hspells
  exact hspells

/-- Zeros between the digits and the point, and one more behind it. -/
theorem spells_whole (hs : s.coefficient ≠ 0)
    (hfits : s.coefficient * 10 ^ (s.point.toNat - s.digits.length + 1) < 2 ^ 64) :
    Spells (s.digits ++ List.replicate (s.point.toNat - s.digits.length) '0' ++ ['.', '0'])
      ⟨s.coefficient * 10 ^ (s.point.toNat - s.digits.length + 1), -1⟩ := by
  have hnumber : Text.numberOf (s.digits
      ++ List.replicate (s.point.toNat - s.digits.length) '0' ++ ['0'])
      = s.coefficient * 10 ^ (s.point.toNat - s.digits.length + 1) := by
    rw [Text.numberOf_append, Text.numberOf_append, Text.numberOf_replicate_zero,
      s.numberOf_digits, List.length_replicate, pow_succ]
    simp [Text.numberOf, Text.digitValue, Nat.mul_assoc]
  have hspells := spells_point
    (s.digits ++ List.replicate (s.point.toNat - s.digits.length) '0') ['0']
    (List.append_ne_nil_of_left_ne_nil (List.ne_nil_of_length_pos s.length_digits_pos) _)
    (fun c hc => (List.mem_append.1 hc).elim Scientific.isDigit_of_mem_digits
      isDigit_of_mem_replicate)
    (startsWell_append hs _) (List.cons_ne_nil '0' []) (List.forall_mem_singleton.2 rfl)
    (by rwa [hnumber])
  rw [hnumber] at hspells
  exact hspells

/-- One digit before the point, and an exponent. -/
theorem spells_exponential (layout : FloatLayout) (hfits : s.coefficient < 2 ^ 64)
    (hpoint : (s.point - 1).natAbs < 2 ^ 31) : Spells (layout.exponentialDigits s) s := by
  have hdigits : ∀ c ∈ s.digits, Text.isDigit c := fun _ => Scientific.isDigit_of_mem_digits
  have hnumber := s.numberOf_digits
  have hlength : s.point = s.digits.length + s.exponent := rfl
  obtain ⟨c, fraction, hcs⟩ := List.exists_cons_of_length_pos s.length_digits_pos
  rw [hcs] at hdigits hnumber hlength
  rw [List.forall_mem_cons] at hdigits
  have hspells := spells_exponent layout hdigits.1 hdigits.2 (by rwa [hnumber]) hpoint
  have hexponent : s.point - 1 - fraction.length = s.exponent := by
    rw [List.length_cons] at hlength
    omega
  rw [hnumber, hexponent] at hspells
  have hform : layout.exponentialDigits s
      = c :: (if fraction = [] then [] else '.' :: fraction)
        ++ 'e' :: (signChars layout (s.point - 1) ++ Text.digitsOf (s.point - 1).natAbs) := by
    unfold FloatLayout.exponentialDigits
    rw [hcs]
    cases fraction with
    | nil => rfl
    | cons d fraction =>
      rw [if_neg (List.cons_ne_nil d fraction)]
      exact List.append_assoc _ _ _
  rw [hform]
  exact hspells

/-- Written digits are read as the significand and the power of ten of their layout, if these are
not too large. -/
theorem spells_digits {least most : Int} (hkeeps : layout.keepsPoint)
    (hpositional : layout.positional = some (least, most)) (hmost : most ≤ 17)
    (hs : s.coefficient ≠ 0) (hfits : s.coefficient < 2 ^ 64)
    (hpoint : (s.point - 1).natAbs < 2 ^ 31) :
    Spells (layout.digits s) (layout.spelled s) := by
  have hsmall := coefficient_spelled_lt hpositional hmost hs hfits
  have hpos := s.length_digits_pos
  unfold FloatLayout.digits
  by_cases hall : layout.isPositional (s.point - 1)
  · rw [if_pos hall]
    unfold FloatLayout.positionalDigits
    dsimp only
    by_cases hwhole : s.digits.length ≤ s.point
    · have hform : layout.spelled s
          = ⟨s.coefficient * 10 ^ (s.point.toNat - s.digits.length + 1), -1⟩ :=
        if_pos ⟨hall, hwhole⟩
      have hbefore : ¬s.point ≤ 0 := by omega
      rw [hform] at hsmall ⊢
      rw [if_neg hbefore, if_neg (Int.not_lt.2 hwhole), if_pos hkeeps]
      exact spells_whole hs hsmall
    · have hform : layout.spelled s = s := if_neg fun h => hwhole h.2
      rw [hform]
      by_cases hbefore : s.point ≤ 0
      · rw [if_pos hbefore]
        exact spells_before hfits hbefore
      · rw [if_neg hbefore, if_pos (Int.not_le.1 hwhole)]
        exact spells_inside hs hfits (Int.not_le.1 hbefore) (Int.not_le.1 hwhole)
  · have hform : layout.spelled s = s := if_neg fun h => hall h.1
    rw [if_neg hall, hform]
    exact spells_exponential layout hfits hpoint

theorem spells_zero : Spells ['0', '.', '0'] ⟨0, -1⟩ :=
  spells_point ['0'] ['0'] (List.cons_ne_nil '0' [])
    (List.forall_mem_singleton.2 rfl) (by intro c more h; cases h) (List.cons_ne_nil '0' [])
    (List.forall_mem_singleton.2 rfl) (by decide)

end Written

/-! ## Tokens -/

/-- A number without a sign starts with a digit. -/
theorem exists_digit_of_wholePart {cs whole rest : List Char}
    (h : wholePart cs = .ok (whole, rest)) : ∃ c cs', cs = c :: cs' ∧ Text.isDigit c := by
  obtain ⟨hwhole, -, hne, -⟩ := wholePart_eq_ok.1 h
  cases cs with
  | nil => exact absurd hwhole.symm hne
  | cons c cs =>
    refine ⟨c, cs, rfl, ?_⟩
    by_contra hc
    rw [List.takeWhile_cons_of_neg hc] at hwhole
    exact hne hwhole.symm

/-- What is spelled is one token. -/
theorem Spells.tokens_eq {cs : List Char} {s : Scientific} (h : Spells cs s) (negative : Bool) :
    tokens ((if negative then ['-'] else []) ++ cs)
      = [.plain (fractional negative s.coefficient s.exponent)] := by
  cases negative with
  | true =>
    have hplain : plainToken? '-' cs = some (numberToken true cs) := rfl
    rw [if_pos rfl, List.singleton_append, tokens_of_plainToken? hplain, h true, tokensAfter,
      tokens_nil]
  | false =>
    have hnumber := h false
    simp only [numberToken, bind_eq_ok] at hnumber
    obtain ⟨⟨whole, rest⟩, hwhole, -⟩ := hnumber
    obtain ⟨d, ds, rfl, hd⟩ := exists_digit_of_wholePart hwhole
    have hother : ∀ e, Text.isDigit e = false → d ≠ e := by
      rintro e he rfl
      rw [hd] at he
      cases he
    have hplain : plainToken? d ds = some (numberToken false (d :: ds)) := by
      simp [plainToken?, hother 'n' rfl, hother 't' rfl, hother 'f' rfl, hother '-' rfl, hd]
    rw [if_neg Bool.false_ne_true, List.nil_append, tokens_of_plainToken? hplain, h false,
      tokensAfter, tokens_nil]

end Json

end ColumnIndex
