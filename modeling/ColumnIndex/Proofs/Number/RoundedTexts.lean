import ColumnIndex.Proofs.Number.DecimalDigits
import ColumnIndex.Proofs.Number.PlainTexts
import ColumnIndex.Proofs.Texts.DigitOrder
import Mathlib.Data.Nat.Find

/-!
# Plain decimal texts as decimal numbers

A decimal number has a coefficient of ninety-six bits and at most twenty-eight fraction digits. A
text with more digits is rounded, a half away from zero, at the last place at which the rounded
coefficient still fits. So a text is read as the number that it denotes if a decimal number is that
number, and as a neighbour otherwise; only a whole part that does not fit is refused.

## Main definitions

* `Decimal.keptPlaces` — how many fraction digits are kept.
* `PlainDecimal.rounded?` — the decimal number that the text is rounded to.

## Main statements

* `PlainDecimal.parse?_decimal` — a text is read as the number that it is rounded to.
* `PlainDecimal.toRat_rounded_iff` — which texts are not changed.
* `PlainDecimal.rounded?_eq_none_iff` — which texts are refused.
-/
namespace ColumnIndex

open Text

/-! ## Rounding at a place -/

theorem roundHalfUp_mul (n : Nat) {den : Nat} (hden : 0 < den) :
    roundHalfUp (n * den) den = n := by
  apply roundHalfUp_eq_of_abs_sub_lt hden.ne'
  rw [Nat.cast_mul, mul_div_cancel_right₀ _ (by positivity), sub_self]
  norm_num

theorem le_roundHalfUp_iff {m num den : Nat} (hden : 0 < den) :
    m ≤ roundHalfUp num den ↔ m * (2 * den) ≤ 2 * num + den :=
  Nat.le_div_iff_mul_le (by omega)

/-- Digits behind a whole number do not make it smaller. -/
theorem le_roundHalfUp (n rest : Nat) {den : Nat} (hden : 0 < den) :
    n ≤ roundHalfUp (n * den + rest) den := by
  rw [le_roundHalfUp_iff hden, Nat.mul_left_comm, Nat.mul_add]
  omega

/-- A lesser divisor gives a greater quotient. -/
theorem roundHalfUp_anti (num : Nat) {den den' : Nat} (hden : 0 < den) (h : den ≤ den') :
    roundHalfUp num den' ≤ roundHalfUp num den := by
  have hlow : roundHalfUp num den' * (2 * den') ≤ 2 * num + den' :=
    (le_roundHalfUp_iff (hden.trans_le h)).1 le_rfl
  rw [le_roundHalfUp_iff hden]
  generalize roundHalfUp num den' = n at hlow
  cases n with
  | zero => omega
  | succ n =>
    have hmul := Nat.mul_le_mul_left (2 * n + 1) h
    linarith

/-- The fewer digits are cut off, the more is kept. -/
theorem roundHalfUp_pow_anti (num : Nat) {i j : Nat} (h : i ≤ j) :
    roundHalfUp num (10 ^ j) ≤ roundHalfUp num (10 ^ i) :=
  roundHalfUp_anti num (by positivity) (Nat.pow_le_pow_right (by decide) h)

/-- What fits before the last digit is cut off fits behind it. -/
theorem roundHalfUp_lt_of_lt {n power limit : Nat} (hlimit : 1 < limit) (h : n < limit * power) :
    roundHalfUp n (10 * power) < limit := by
  have hpower : 0 < power := Nat.pos_of_mul_pos_left (Nat.zero_lt_of_lt h)
  rw [← not_le, le_roundHalfUp_iff (by omega), not_le]
  have htwo := Nat.mul_le_mul_right power hlimit
  linarith

/-- The first digit that is cut off says how the others are rounded. -/
theorem roundHalfUp_digit (n : Nat) {power digit rest : Nat} (hdigit : digit < 10)
    (hrest : rest < power) :
    roundHalfUp (n * (10 * power) + (digit * power + rest)) (10 * power)
      = n + if 5 ≤ digit then 1 else 0 := by
  have hleast : 0 ≤ digit * power := Nat.zero_le _
  have hmost : digit * power ≤ 9 * power := Nat.mul_le_mul_right _ (by omega)
  rw [roundHalfUp]
  apply Nat.div_eq_of_lt_le
  · split
    · have hfive : 5 * power ≤ digit * power := Nat.mul_le_mul_right _ ‹_›
      linarith
    · linarith
  · split
    · linarith
    · have hfour : digit * power ≤ 4 * power := Nat.mul_le_mul_right _ (by omega)
      linarith

/-! ## Signs -/

/-- Zero is zero with any sign. -/
theorem signed_and_ne_zero (negative : Bool) (n : Nat) (q : Rat) :
    signed (negative && n != 0) (n / q) = signed negative (n / q) := by
  by_cases hzero : n = 0
  · rw [hzero, Nat.cast_zero, zero_div]
    cases negative with
    | true => simp
    | false => rfl
  · rw [bne_iff_ne.2 hzero, Bool.and_true]

namespace Decimal

variable {negative : Bool} {coefficient scale : Nat} {ds : List Char}

/-! ## Digits that are cut off -/

/-- Digits that are cut off round what is kept, and if that does not fit then one digit more is cut
off. -/
theorem cutOff?_digits (hds : ∀ c ∈ ds, isDigit c) (hcoefficient : coefficient < 2 ^ 96)
    {n : Nat} (hn : coefficient * 10 ^ ds.length + numberOf ds = n) :
    cutOff? negative coefficient scale ds
      = if roundHalfUp n (10 ^ ds.length) < 2 ^ 96 then
          ofParts? negative (roundHalfUp n (10 ^ ds.length)) scale
        else if scale = 0 then none
        else ofParts? negative (roundHalfUp n (10 ^ (ds.length + 1))) (scale - 1) := by
  have hfiller : ds.all isFiller := by
    rw [List.all_eq_true]
    intro c hc
    rw [isFiller, hds c hc, Bool.true_or]
  unfold cutOff?
  rw [hfiller, Bool.not_true, if_neg Bool.false_ne_true]
  cases ds with
  | nil =>
    rw [numberOf_nil, List.length_nil, Nat.pow_zero, Nat.mul_one, Nat.add_zero] at hn
    rw [List.length_nil, Nat.pow_zero, ← Nat.mul_one n, roundHalfUp_mul n Nat.one_pos, ← hn,
      if_pos hcoefficient]
    rfl
  | cons c ds =>
    obtain ⟨hc, hds⟩ := List.forall_mem_cons.1 hds
    have hrest : numberOf (c :: ds) < 10 ^ (c :: ds).length :=
      numberOf_lt (List.forall_mem_cons.2 ⟨hc, hds⟩)
    have hround : roundHalfUp n (10 ^ (c :: ds).length)
        = coefficient + if 5 ≤ digitValue c then 1 else 0 := by
      rw [← hn, numberOf_cons, List.length_cons, Nat.pow_succ']
      exact roundHalfUp_digit coefficient (digitValue_lt hc) (numberOf_lt hds)
    rw [hround]
    simp only [List.head?_cons, Option.any_some, hc, Bool.true_and, decide_eq_true_eq]
    by_cases hfive : 5 ≤ digitValue c
    · rw [if_pos hfive, if_pos hfive]
      by_cases hfits : coefficient + 1 < 2 ^ 96
      · rw [if_pos hfits, if_pos hfits]
      · -- The full coefficient ends in a five, which rounds it up once more.
        have hlast : coefficient = (coefficient / 10) * 10 + 5 := by omega
        have hround' : roundHalfUp n (10 ^ ((c :: ds).length + 1)) = (coefficient + 5) / 10 := by
          rw [← hn, Nat.pow_succ']
          conv_lhs => rw [hlast, Nat.add_mul, Nat.mul_assoc, Nat.add_assoc]
          rw [roundHalfUp_digit _ (by decide) hrest, if_pos le_rfl]
          omega
        rw [if_neg hfits, if_neg hfits, hround']
    · rw [if_neg hfive, if_neg hfive, Nat.add_zero, if_pos hcoefficient]

/-- How many fraction digits a number keeps: at the last place it can be rounded at. -/
def keptPlaces (n places : Nat) : Nat :=
  Nat.findGreatest (fun j => roundHalfUp n (10 ^ (places - j)) < 2 ^ 96) (min 28 places)

/-- The number `n / 10 ^ places`, rounded a half away from zero at the last place at which it
fits. -/
def rounded? (negative : Bool) (n places : Nat) : Option Decimal :=
  ofParts? negative (roundHalfUp n (10 ^ (places - keptPlaces n places))) (keptPlaces n places)

variable {n places j : Nat}

theorem rounded?_of_greatest (hj : j ≤ min 28 places)
    (hfits : roundHalfUp n (10 ^ (places - j)) < 2 ^ 96)
    (hmore : ∀ i, j < i → i ≤ min 28 places → 2 ^ 96 ≤ roundHalfUp n (10 ^ (places - i))) :
    rounded? negative n places = ofParts? negative (roundHalfUp n (10 ^ (places - j))) j := by
  have hkept : keptPlaces n places = j :=
    Nat.findGreatest_eq_iff.2 ⟨hj, fun _ => hfits, fun i hi hle => not_lt.2 (hmore i hi hle)⟩
  rw [rounded?, hkept]

/-- A number is rounded at some place unless its whole part does not fit. -/
theorem rounded?_eq_none_iff :
    rounded? negative n places = none ↔ 2 ^ 96 ≤ roundHalfUp n (10 ^ places) := by
  have hkept : keptPlaces n places ≤ min 28 places := Nat.findGreatest_le _
  rw [rounded?, ofParts?, dite_eq_right_iff]
  constructor
  · intro hnone
    by_contra hfits
    have hspec : roundHalfUp n (10 ^ (places - keptPlaces n places)) < 2 ^ 96 :=
      Nat.findGreatest_spec (P := fun j => roundHalfUp n (10 ^ (places - j)) < 2 ^ 96)
        (Nat.zero_le _) (not_le.1 hfits)
    cases hnone ⟨hspec, hkept.trans (Nat.min_le_left _ _)⟩
  · rintro hfull ⟨hfits, -⟩
    exact absurd (hfull.trans (roundHalfUp_pow_anti n (Nat.sub_le _ _))) (not_le.2 hfits)

/-- What is cut off where the next digit does not fit is rounded at the last place. -/
theorem cutOff?_eq_rounded (hds : ∀ c ∈ ds, isDigit c) (hcoefficient : coefficient < 2 ^ 96)
    (hscale : scale ≤ 28) (hn : coefficient * 10 ^ ds.length + numberOf ds = n)
    (hmore : ∀ i, scale < i → i ≤ min 28 (scale + ds.length) →
      2 ^ 96 ≤ roundHalfUp n (10 ^ (scale + ds.length - i))) :
    cutOff? negative coefficient scale ds = rounded? negative n (scale + ds.length) := by
  have hrest : scale + ds.length - scale = ds.length := Nat.add_sub_cancel_left _ _
  rw [cutOff?_digits hds hcoefficient hn]
  by_cases hfits : roundHalfUp n (10 ^ ds.length) < 2 ^ 96
  · rw [if_pos hfits, rounded?_of_greatest (j := scale) (by omega) (by rwa [hrest]) hmore, hrest]
  · rw [if_neg hfits]
    cases scale with
    | zero =>
      rw [Nat.zero_add] at hmore ⊢
      rw [if_pos rfl, rounded?_eq_none_iff.2 (not_lt.1 hfits)]
    | succ j =>
      have hprevious : j + 1 + ds.length - j = ds.length + 1 := by omega
      rw [if_neg (Nat.succ_ne_zero j), Nat.add_sub_cancel, ← hprevious]
      refine (rounded?_of_greatest (by omega) ?_ ?_).symm
      · rw [hprevious, Nat.pow_succ']
        apply roundHalfUp_lt_of_lt (by decide)
        rw [← hn]
        have hmul := Nat.mul_le_mul_right (10 ^ ds.length) (Nat.succ_le_of_lt hcoefficient)
        have hrest := numberOf_lt hds
        linarith
      · intro i hi hle
        rcases Nat.eq_or_lt_of_le (Nat.succ_le_of_lt hi) with rfl | hlt
        · rw [hrest]
          exact not_lt.1 hfits
        · exact hmore i hlt hle

theorem dropWhile_underscore (hds : ∀ c ∈ ds, isDigit c) : ds.dropWhile (· = '_') = ds := by
  cases ds with
  | nil => rfl
  | cons c ds =>
    have hc := hds c List.mem_cons_self
    refine List.dropWhile_cons_of_neg fun h => ?_
    rw [of_decide_eq_true h] at hc
    exact absurd hc (by decide)

/-- The digits of a fraction are read as long as they fit, and the others round them. -/
theorem plainFrom_rounded (hds : ∀ c ∈ ds, isDigit c) (hcoefficient : coefficient < 2 ^ 96)
    (hscale : scale < 28) :
    plainFrom negative true true coefficient scale ds
      = rounded? negative (coefficient * 10 ^ ds.length + numberOf ds) (scale + ds.length) := by
  -- The coefficient is that of the digits read so far, so the number of all digits stays the same.
  induction ds generalizing coefficient scale with
  | nil =>
    have hround : ∀ n, roundHalfUp n (10 ^ 0) = n := fun n => by
      simpa using roundHalfUp_mul n Nat.one_pos
    simp only [List.length_nil, numberOf_nil, Nat.pow_zero, Nat.mul_one, Nat.add_zero]
    rw [rounded?_of_greatest (j := scale) (by omega) (by rwa [Nat.sub_self, hround]) (by omega),
      Nat.sub_self, hround]
    rfl
  | cons c ds ih =>
    obtain ⟨hc, hds'⟩ := List.forall_mem_cons.1 hds
    have hplaces : scale + (c :: ds).length = scale + 1 + ds.length := by
      rw [List.length_cons]
      omega
    rw [plainFrom]
    simp only [hc, if_true, Bool.true_and, decide_eq_true_eq]
    by_cases hfull : 2 ^ 96 ≤ 10 * coefficient + digitValue c
    · rw [if_pos hfull]
      refine cutOff?_eq_rounded hds hcoefficient (by omega) rfl ?_
      intro i hi hle
      have hless : scale + (c :: ds).length - i ≤ ds.length := by omega
      refine (hfull.trans ?_).trans (roundHalfUp_pow_anti _ hless)
      rw [shifted_numberOf_cons]
      exact le_roundHalfUp _ _ (by positivity)
    · rw [if_neg hfull, shifted_numberOf_cons, hplaces]
      by_cases hlast : 28 ≤ scale + 1
      · have hdrop :
            (if longCoefficient ≤ coefficient then ds.dropWhile (· = '_') else ds) = ds := by
          rw [dropWhile_underscore hds', ite_self]
        rw [if_pos hlast, hdrop]
        exact cutOff?_eq_rounded hds' (not_le.1 hfull) (by omega) rfl (by omega)
      · rw [if_neg hlast]
        exact ih hds' (not_le.1 hfull) (by omega)

/-- A whole part that does not fit is refused. -/
theorem plainFrom_eq_none {seen : Bool} {rest : List Char} (hds : ∀ c ∈ ds, isDigit c)
    (hcoefficient : coefficient < 2 ^ 96)
    (hfull : 2 ^ 96 ≤ coefficient * 10 ^ ds.length + numberOf ds) :
    plainFrom negative false seen coefficient scale (ds ++ rest) = none := by
  induction ds generalizing seen coefficient with
  | nil =>
    rw [List.length_nil, Nat.pow_zero, Nat.mul_one, numberOf_nil, Nat.add_zero] at hfull
    exact absurd hcoefficient (not_lt.2 hfull)
  | cons c ds ih =>
    obtain ⟨hc, hds⟩ := List.forall_mem_cons.1 hds
    rw [shifted_numberOf_cons] at hfull
    rw [List.cons_append, plainFrom]
    simp only [hc, if_true, Bool.false_and, Bool.false_eq_true, if_false]
    by_cases hnext : 2 ^ 96 ≤ 10 * coefficient + digitValue c
    · rw [if_pos hnext]
    · rw [if_neg hnext]
      exact ih hds (not_le.1 hnext) hfull

/-- Zero loses its sign. -/
theorem ofParts?_map_unsigned (negative : Bool) (n scale : Nat) :
    (ofParts? negative n scale).map
        (fun d => if d.coefficient = 0 then { d with negative := false } else d)
      = ofParts? (negative && n != 0) n scale := by
  unfold ofParts?
  by_cases hfits : n < 2 ^ 96 ∧ scale ≤ 28
  · rw [dif_pos hfits, dif_pos hfits, Option.map_some]
    by_cases hzero : n = 0
    · simp [hzero]
    · simp [hzero]
  · rw [dif_neg hfits, dif_neg hfits, Option.map_none]

end Decimal

/-! ## Read as a decimal number -/

namespace PlainDecimal

variable (p : PlainDecimal)

/-- The coefficient that the text is rounded to. -/
def roundedCoefficient : Nat :=
  roundHalfUp p.coefficient (10 ^ (p.places - Decimal.keptPlaces p.coefficient p.places))

/-- The decimal number that the text is rounded to, a half away from zero, at the last place at
which it fits. Zero has no sign. -/
def rounded? : Option Decimal :=
  Decimal.rounded? (p.sign.negative && p.roundedCoefficient != 0) p.coefficient p.places

theorem plainFrom_magnitudeChars (negative : Bool) :
    Decimal.plainFrom negative false false 0 0 p.magnitudeChars
      = Decimal.rounded? negative p.coefficient p.places := by
  have hnumber : numberOf p.whole * 10 ^ p.places + numberOf p.fraction = p.coefficient :=
    (numberOf_append _ _).symm
  have hvalue : 0 * 10 ^ p.whole.length + numberOf p.whole = numberOf p.whole := by omega
  by_cases hfits : numberOf p.whole < 2 ^ 96
  · have hwhole : ∀ rest, Decimal.plainFrom negative false false 0 0 (p.whole ++ rest)
        = Decimal.plainFrom negative false true (numberOf p.whole) 0 rest := by
      intro rest
      have hseen : p.whole.isEmpty = false := List.isEmpty_eq_false_iff.2 p.whole_ne_nil
      rw [Decimal.plainFrom_whole p.isDigit_whole (by rwa [hvalue]), hvalue, hseen]
      rfl
    have hfraction : Decimal.plainFrom negative true true (numberOf p.whole) 0 p.fraction
        = Decimal.rounded? negative p.coefficient p.places := by
      rw [Decimal.plainFrom_rounded p.isDigit_fraction hfits (by decide), Nat.zero_add, ← places,
        hnumber]
    rw [← hfraction, magnitudeChars]
    split
    · rename_i hnil
      have hend := hwhole []
      rw [List.append_nil] at hend
      rw [hend, hnil]
      rfl
    · rw [hwhole, Decimal.plainFrom, if_neg (by decide), if_pos ⟨rfl, rfl⟩]
  · have hnone : ∀ rest, Decimal.plainFrom negative false false 0 0 (p.whole ++ rest) = none :=
      fun rest => Decimal.plainFrom_eq_none p.isDigit_whole (by decide)
        (by rw [hvalue]; exact not_lt.1 hfits)
    have hround : 2 ^ 96 ≤ roundHalfUp p.coefficient (10 ^ p.places) := by
      rw [← hnumber]
      exact (not_lt.1 hfits).trans (le_roundHalfUp _ _ (by positivity))
    rw [Decimal.rounded?_eq_none_iff.2 hround, magnitudeChars]
    split
    · simpa using hnone []
    · exact hnone _

theorem plain?_chars : Decimal.plain? p.chars = p.rounded? := by
  have hread : ∀ negative, (Decimal.plainFrom negative false false 0 0 p.magnitudeChars).map
      (fun d => if d.coefficient = 0 then { d with negative := false } else d)
        = Decimal.ofParts? (negative && p.roundedCoefficient != 0) p.roundedCoefficient
          (Decimal.keptPlaces p.coefficient p.places) := by
    intro negative
    rw [p.plainFrom_magnitudeChars, Decimal.rounded?, Decimal.ofParts?_map_unsigned]
    rfl
  rw [chars, rounded?]
  cases p.sign with
  | minus => exact hread true
  | plus => exact hread false
  | absent =>
    obtain ⟨c, rest, hcs, hc⟩ := p.exists_cons_magnitudeChars
    obtain ⟨hminus, hplus⟩ := ne_sign_of_isDigit hc
    have hpositive := hread false
    rw [hcs] at hpositive ⊢
    refine Eq.trans ?_ hpositive
    rw [SignMark.chars, List.nil_append]
    unfold Decimal.plain?
    dsimp only
    split
    · rename_i heq
      exact absurd (List.cons.inj heq).1 hminus
    · rename_i heq
      exact absurd (List.cons.inj heq).1 hplus
    · rfl

/-- A text without an exponent is not read as one with an exponent. -/
theorem scientific?_chars : Decimal.scientific? p.chars = none := by
  have hmark : p.chars.dropWhile (fun c => !(c = 'e' || c = 'E')) = [] := by
    rw [List.dropWhile_eq_nil_iff]
    intro c hc
    rcases p.isDigit_or_of_mem_chars c hc with hdigit | hmark
    · have hlower : c ≠ 'e' := by
        rintro rfl
        cases hdigit
      have hupper : c ≠ 'E' := by
        rintro rfl
        cases hdigit
      simp [hlower, hupper]
    · simp only [List.mem_cons, List.not_mem_nil, or_false] at hmark
      rcases hmark with rfl | rfl | rfl
      all_goals decide
  unfold Decimal.scientific?
  dsimp only
  rw [hmark]

/-- A text is read as the decimal number that it is rounded to. -/
theorem parse?_decimal {text : String} (h : p.IsSpelledBy text) :
    Decimal.parse? text = p.rounded? := by
  rw [Decimal.parse?, p.trimChars_of_isSpelledBy h, p.plain?_chars, p.scientific?_chars]
  cases p.rounded? with
  | none => rfl
  | some d => rfl

/-! ## What is kept -/

variable {d : Decimal}

/-- The digits up to a place, in front of those that are cut off. -/
theorem magnitude_mul_pow {j : Nat} (hj : j ≤ p.places) :
    p.magnitude * 10 ^ j = p.coefficient / (10 ^ (p.places - j) : Nat) := by
  obtain ⟨more, hmore⟩ := Nat.exists_eq_add_of_le hj
  have hrest : p.places - j = more := by omega
  rw [magnitude, hrest, hmore, pow_add, Nat.cast_pow, Nat.cast_ofNat]
  field_simp

theorem keptPlaces_le : Decimal.keptPlaces p.coefficient p.places ≤ min 28 p.places :=
  Nat.findGreatest_le _

/-- The parts of the number that the text is rounded to. -/
theorem rounded?_eq_some (h : p.rounded? = some d) :
    d.scale = Decimal.keptPlaces p.coefficient p.places ∧
      d.toRat = signed p.sign.negative (p.roundedCoefficient / 10 ^ d.scale) := by
  rw [rounded?, Decimal.rounded?, Decimal.ofParts?, Option.dite_none_right_eq_some] at h
  obtain ⟨_, hd⟩ := h
  obtain rfl := Option.some.inj hd
  refine ⟨rfl, ?_⟩
  rw [Decimal.toRat_eq_signed]
  exact signed_and_ne_zero _ p.roundedCoefficient _

/-- A text is changed by at most half a unit of the last place that is kept. -/
theorem abs_rounded_sub_le (h : p.rounded? = some d) :
    |d.toRat - p.toRat| * 10 ^ d.scale ≤ 1 / 2 := by
  obtain ⟨hscale, hvalue⟩ := p.rounded?_eq_some h
  have hle : d.scale ≤ p.places := by
    have := p.keptPlaces_le
    omega
  have hround : |(roundHalfUp p.coefficient (10 ^ (p.places - d.scale)) : Rat)
      - p.coefficient / (10 ^ (p.places - d.scale) : Nat)| ≤ 1 / 2 :=
    abs_roundHalfUp_sub_le p.coefficient (by positivity)
  have hpower : (0 : Rat) < 10 ^ d.scale := by positivity
  calc |d.toRat - p.toRat| * 10 ^ d.scale
      = |p.roundedCoefficient / 10 ^ d.scale - p.magnitude| * |10 ^ d.scale| := by
        rw [hvalue, toRat, abs_signed_sub, abs_of_pos hpower]
    _ = |p.roundedCoefficient - p.magnitude * 10 ^ d.scale| := by
        rw [← abs_mul, sub_mul, div_mul_cancel₀ _ hpower.ne']
    _ ≤ 1 / 2 := by
        rw [p.magnitude_mul_pow hle, roundedCoefficient, ← hscale]
        exact hround

/-- Digits that end at a place where they fit are all kept. -/
theorem exists_rounded?_of_exact {n j : Nat} (hn : n < 2 ^ 96) (hj : j ≤ min 28 p.places)
    (hexact : p.coefficient = n * 10 ^ (p.places - j)) :
    ∃ d, p.rounded? = some d ∧ d.toRat = p.toRat := by
  have hfits : roundHalfUp p.coefficient (10 ^ (p.places - j)) < 2 ^ 96 := by
    rwa [hexact, roundHalfUp_mul _ (by positivity)]
  have hkept : j ≤ Decimal.keptPlaces p.coefficient p.places := Nat.le_findGreatest hj hfits
  cases hd : p.rounded? with
  | none =>
    rw [rounded?, Decimal.rounded?_eq_none_iff] at hd
    exact absurd (hd.trans (roundHalfUp_pow_anti _ (Nat.sub_le _ _))) (not_le.2 hfits)
  | some d =>
    obtain ⟨hscale, hvalue⟩ := p.rounded?_eq_some hd
    have hmost := p.keptPlaces_le
    rw [← hscale] at hkept hmost
    obtain ⟨more, hmore⟩ := Nat.exists_eq_add_of_le hkept
    have hround : p.coefficient = n * 10 ^ more * 10 ^ (p.places - d.scale) := by
      rw [hexact, Nat.mul_assoc, ← Nat.pow_add]
      congr 2
      omega
    have hcoefficient : p.roundedCoefficient = n * 10 ^ more := by
      rw [roundedCoefficient, ← hscale, hround, roundHalfUp_mul _ (by positivity)]
    refine ⟨d, rfl, ?_⟩
    have hpower : (0 : Rat) < 10 ^ d.scale := by positivity
    rw [hvalue, toRat, signed_inj, div_eq_iff hpower.ne', p.magnitude_mul_pow (by omega),
      hcoefficient, hround, Nat.cast_mul _ (10 ^ (p.places - d.scale)),
      mul_div_cancel_right₀ _ (by positivity)]

/-- A text that denotes a decimal number is read as that number. -/
theorem exists_rounded?_of_decimal (h : d.toRat = p.toRat) :
    ∃ d', p.rounded? = some d' ∧ d'.toRat = p.toRat := by
  have hmagnitude : (d.coefficient : Rat) / 10 ^ d.scale = p.coefficient / 10 ^ p.places := by
    rw [← d.abs_toRat, h, p.abs_toRat, magnitude]
  rw [div_eq_div_iff (by positivity) (by positivity)] at hmagnitude
  have hcross : d.coefficient * 10 ^ p.places = p.coefficient * 10 ^ d.scale := by
    exact_mod_cast hmagnitude
  have hbound := d.coefficient_lt
  have hscale := d.scale_le
  rcases Nat.le_total d.scale p.places with hle | hle
  · obtain ⟨more, hmore⟩ := Nat.exists_eq_add_of_le hle
    refine p.exists_rounded?_of_exact (n := d.coefficient) (j := d.scale) hbound (by omega) ?_
    have hrest : p.places - d.scale = more := by omega
    rw [hmore, Nat.pow_add, ← Nat.mul_assoc, Nat.mul_right_comm] at hcross
    rw [hrest, Nat.eq_of_mul_eq_mul_right (by positivity) hcross]
  · obtain ⟨more, hmore⟩ := Nat.exists_eq_add_of_le hle
    rw [hmore, Nat.pow_add, Nat.mul_comm (10 ^ p.places), ← Nat.mul_assoc] at hcross
    have hvalue := Nat.eq_of_mul_eq_mul_right (by positivity) hcross
    have hpower : 0 < 10 ^ more := by positivity
    have hless := Nat.le_mul_of_pos_right p.coefficient hpower
    refine p.exists_rounded?_of_exact (n := p.coefficient) (j := p.places) (by omega) (by omega) ?_
    rw [Nat.sub_self, Nat.pow_zero, Nat.mul_one]

/-- A text is kept as it is exactly where a decimal number is what it denotes. -/
theorem toRat_rounded_iff (h : p.rounded? = some d) :
    d.toRat = p.toRat ↔ ∃ e : Decimal, e.toRat = p.toRat := by
  constructor
  · intro hvalue
    exact ⟨d, hvalue⟩
  · rintro ⟨e, he⟩
    obtain ⟨d', hd', hvalue⟩ := p.exists_rounded?_of_decimal he
    rw [h] at hd'
    rw [Option.some.inj hd', hvalue]

/-- A text is refused where half a unit more would not fit as a whole number. -/
theorem rounded?_eq_none_iff : p.rounded? = none ↔ 2 ^ 96 ≤ p.magnitude + 1 / 2 := by
  have hpower : (0 : Rat) < 10 ^ p.places := by positivity
  have hcast : (2 : Rat) ^ 96 ≤ p.magnitude + 1 / 2 ↔
      (2 : Rat) ^ 96 * (2 * 10 ^ p.places) ≤ 2 * p.coefficient + 10 ^ p.places := by
    rw [magnitude, div_add_div _ _ hpower.ne' two_ne_zero, le_div_iff₀ (by positivity)]
    constructor
    · intro h
      linarith
    · intro h
      linarith
  rw [rounded?, Decimal.rounded?_eq_none_iff, le_roundHalfUp_iff (by positivity), hcast]
  exact_mod_cast Iff.rfl

end PlainDecimal

end ColumnIndex
