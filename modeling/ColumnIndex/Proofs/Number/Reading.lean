import ColumnIndex.Number.Binary.Reader
import ColumnIndex.Proofs.Digits
import ColumnIndex.Proofs.Number.Arithmetic
import Mathlib.Data.List.TakeWhile

/-!
# Decimal texts are read as the nearest numbers

Digits with a point among them or none are read as the floating-point number that is nearest to
what they denote. No power of ten is computed for a number beyond the reach of a format, but the
answer is the same as if it were.

Main statements: `FloatFormat.nearestDecimal_eq`, `BinaryFloat.parse?_signed`.
-/
namespace ColumnIndex

namespace Text

/-- A number is between the powers of ten that its digits fill. -/
theorem pow_length_digitsOf_le {n : Nat} (hn : n ≠ 0) :
    10 ^ ((digitsOf n).length - 1) ≤ n ∧ n < 10 ^ (digitsOf n).length := by
  have hpos : 0 < (digitsOf n).length := List.length_pos_of_ne_nil (digitsOf_ne_nil n)
  have hhigh : n < 10 ^ (digitsOf n).length :=
    (Nat.length_toDigits_le_iff (by decide) hpos).1 le_rfl
  refine ⟨?_, hhigh⟩
  by_contra hlt
  by_cases hone : (digitsOf n).length - 1 = 0
  · rw [hone] at hlt
    omega
  · have h := (Nat.length_toDigits_le_iff (b := 10) (by decide) (by omega)).2 (Nat.lt_of_not_le hlt)
    rw [digitsOf] at *
    omega

/-- The place of the point says between which powers of ten a number is. -/
theorem zpow_point_le {n : Nat} (hn : n ≠ 0) (e : Int) :
    (10 : Rat) ^ ((digitsOf n).length + e - 1) ≤ n * 10 ^ e ∧
      (n * 10 ^ e : Rat) < 10 ^ ((digitsOf n).length + e) := by
  obtain ⟨hlow, hhigh⟩ := pow_length_digitsOf_le hn
  have hpos : 0 < (digitsOf n).length := List.length_pos_of_ne_nil (digitsOf_ne_nil n)
  have hlow' : (10 : Rat) ^ (((digitsOf n).length - 1 : Nat) : Int) ≤ n := by exact_mod_cast hlow
  have hhigh' : (n : Rat) < 10 ^ ((digitsOf n).length : Int) := by exact_mod_cast hhigh
  constructor
  · calc (10 : Rat) ^ ((digitsOf n).length + e - 1)
        = 10 ^ (((digitsOf n).length - 1 : Nat) : Int) * 10 ^ e := by
          rw [← zpow_add₀ ten_ne_zero]
          congr 1
          omega
      _ ≤ n * 10 ^ e := by gcongr
  · calc (n * 10 ^ e : Rat) < 10 ^ ((digitsOf n).length : Int) * 10 ^ e := by gcongr
      _ = 10 ^ ((digitsOf n).length + e) := (zpow_add₀ ten_ne_zero _ _).symm

end Text

/-! ## Numbers out of reach -/

/-- A decimal number as a quotient of powers of ten. -/
theorem decimal_quotient (n : Nat) (e : Int) :
    ((n * 10 ^ e.toNat : Nat) : Rat) / (10 ^ (-e).toNat : Nat) = n * 10 ^ e := by
  push_cast
  rw [pow_toNat ten_ne_zero, ← mul_assoc, mul_div_cancel_right₀ _ (pow_ne_zero _ ten_ne_zero)]

namespace FloatFormat

variable {F : FloatFormat}

theorem minExponent_le_one (F : FloatFormat) : F.minExponent ≤ 1 := by
  have : (1 : Int) ≤ 2 ^ (F.exponentBits - 1) := by exact_mod_cast Nat.two_pow_pos _
  unfold minExponent
  omega

/-- A number with more digits before its point than the greatest magnitude has bits. -/
theorem Rounds.infinityCode_le (he : F.exponentBits ≠ 0) {q : Rat} {code : Nat}
    (h : F.Rounds q code) (hq : 10 ^ 2 ^ (F.exponentBits - 1) ≤ q) : F.infinityCode ≤ code := by
  apply h.ge_of_magnitude_le
  calc F.magnitude F.infinityCode = 2 ^ 2 ^ (F.exponentBits - 1) := F.magnitude_infinityCode he
    _ ≤ 10 ^ 2 ^ (F.exponentBits - 1) := by gcongr; norm_num
    _ ≤ q := hq

/-- A number that starts so far behind its point that less than half a step is left of it. -/
theorem Rounds.eq_zero {q : Rat} {code : Nat} (h : F.Rounds q code)
    (hq : q < 10 ^ (F.minExponent - 1)) : code = 0 := by
  have hmid : F.midpoint 0 = 2 ^ (F.minExponent - 1) := by
    have hexponent : F.exponent 0 = F.minExponent := by simp [exponent]
    rw [FloatFormat.midpoint, magnitude_zero, hexponent, zpow_sub_one₀ two_ne_zero]
    ring
  have hsmall : (10 : Rat) ^ (F.minExponent - 1) ≤ 2 ^ (F.minExponent - 1) := by
    obtain ⟨n, hn⟩ : ∃ n : Nat, F.minExponent - 1 = -n := by
      have := F.minExponent_le_one
      exact ⟨(1 - F.minExponent).toNat, by omega⟩
    rw [hn, zpow_neg, zpow_neg, zpow_natCast, zpow_natCast]
    apply inv_anti₀ (by positivity)
    gcongr
    norm_num
  have hzero : F.Rounds q 0 := by
    refine ⟨?_, ?_, fun _ => rfl⟩
    · intro c hc
      omega
    · rw [hmid]
      exact (hq.trans_le hsmall).le
  exact h.unique hzero

/-- The nearest code of a decimal number is that of a quotient of powers of ten. -/
theorem nearestDecimal_eq (hf : F.fractionBits ≠ 0) (he : F.exponentBits ≠ 0) (coefficient : Nat)
    (exponent : Int) :
    F.nearestDecimal coefficient exponent
      = F.nearestCode (coefficient * 10 ^ exponent.toNat) (10 ^ (-exponent).toNat) := by
  unfold nearestDecimal
  dsimp only
  by_cases hzero : coefficient = 0
  · simp [hzero, nearestCode]
  rw [if_neg hzero]
  obtain ⟨hlow, hhigh⟩ := Text.zpow_point_le hzero exponent
  have hden : 10 ^ (-exponent).toNat ≠ 0 := pow_ne_zero _ (by norm_num)
  obtain ⟨code, hcode, hnearest⟩ := nearestCode_spec hf (coefficient * 10 ^ exponent.toNat) hden
  rw [decimal_quotient] at hcode
  split
  · rename_i hlarge
    have hbeyond : F.infinityCode ≤ code := by
      apply hcode.infinityCode_le he
      refine le_trans ?_ hlow
      rw [← zpow_natCast]
      apply zpow_le_zpow_right₀ (by norm_num)
      push_cast
      omega
    rw [hnearest, min_eq_left hbeyond]
  · split
    · rename_i hsmall
      have hnothing : code = 0 := by
        apply hcode.eq_zero
        refine lt_of_lt_of_le hhigh ?_
        apply zpow_le_zpow_right₀ (by norm_num)
        omega
      rw [hnearest, hnothing, min_eq_right (Nat.zero_le _)]
    · rfl

end FloatFormat

/-! ## Texts -/

namespace DecimalText

variable {whole fraction : List Char}

/-- Digits denote a whole number. -/
theorem parse?_whole (hne : whole ≠ []) (hwhole : ∀ c ∈ whole, Text.isDigit c) :
    parse? whole = some ⟨whole, 0⟩ := by
  have htake : whole.takeWhile Text.isDigit = whole := List.takeWhile_eq_self_iff.2 hwhole
  have hdrop : whole.dropWhile Text.isDigit = [] := List.dropWhile_eq_nil_iff.2 hwhole
  simp [parse?, htake, hdrop, hne, exponentPart?]

/-- Digits with a point among them. -/
theorem parse?_point (hne : whole ≠ []) (hwhole : ∀ c ∈ whole, Text.isDigit c)
    (hfraction : ∀ c ∈ fraction, Text.isDigit c) :
    parse? (whole ++ '.' :: fraction) = some ⟨whole ++ fraction, -fraction.length⟩ := by
  have hpoint : Text.isDigit '.' = false := rfl
  have htake : (whole ++ '.' :: fraction).takeWhile Text.isDigit = whole := by
    rw [List.takeWhile_append_of_pos hwhole, List.takeWhile_cons_of_neg (by simp [hpoint]),
      List.append_nil]
  have hdrop : (whole ++ '.' :: fraction).dropWhile Text.isDigit = '.' :: fraction := by
    rw [List.dropWhile_append_of_pos hwhole, List.dropWhile_cons_of_neg (by simp [hpoint])]
  have htake' : fraction.takeWhile Text.isDigit = fraction :=
    List.takeWhile_eq_self_iff.2 hfraction
  have hdrop' : fraction.dropWhile Text.isDigit = [] := List.dropWhile_eq_nil_iff.2 hfraction
  simp [parse?, htake, hdrop, htake', hdrop', hne, exponentPart?]

/-- The characters start with a digit and denote a number. -/
structure Reads (cs : List Char) (q : Rat) : Prop where
  first : ∃ c rest, cs = c :: rest ∧ Text.isDigit c
  value : ∃ t, parse? cs = some t ∧ t.toRat = q

theorem exists_cons_of_digits (hne : whole ≠ []) (hwhole : ∀ c ∈ whole, Text.isDigit c)
    (rest : List Char) : ∃ c rest', whole ++ rest = c :: rest' ∧ Text.isDigit c := by
  obtain ⟨c, cs, rfl⟩ := List.exists_cons_of_ne_nil hne
  exact ⟨c, cs ++ rest, rfl, hwhole c List.mem_cons_self⟩

theorem reads_whole (hne : whole ≠ []) (hwhole : ∀ c ∈ whole, Text.isDigit c) :
    Reads whole (Text.numberOf whole) where
  first := by simpa using exists_cons_of_digits hne hwhole []
  value := by
    refine ⟨_, parse?_whole hne hwhole, ?_⟩
    simp [toRat]

theorem reads_point (hne : whole ≠ []) (hwhole : ∀ c ∈ whole, Text.isDigit c)
    (hfraction : ∀ c ∈ fraction, Text.isDigit c) :
    Reads (whole ++ '.' :: fraction)
      (Text.numberOf (whole ++ fraction) / 10 ^ fraction.length) where
  first := exists_cons_of_digits hne hwhole _
  value := by
    refine ⟨_, parse?_point hne hwhole hfraction, ?_⟩
    rw [toRat, zpow_neg, zpow_natCast]
    rfl

end DecimalText

namespace BinaryFloat

variable {F : FloatFormat}

/-- A decimal number is read as the nearest one. -/
theorem ofDecimal_eq (hf : F.fractionBits ≠ 0) (he : F.exponentBits ≠ 0) (negative : Bool)
    (coefficient : Nat) (exponent : Int) :
    (ofDecimal negative coefficient exponent : BinaryFloat F)
      = ofRat negative (signed negative (coefficient * 10 ^ exponent)) := by
  have hden : 10 ^ (-exponent).toNat ≠ 0 := pow_ne_zero _ (by norm_num)
  rw [← decimal_quotient, ← ofRatio_eq_ofRat hf negative _ hden]
  apply ext
  · rfl
  · exact FloatFormat.nearestDecimal_eq hf he coefficient exponent

/-- Digits behind a sign or none are read as the number nearest to what they denote. -/
theorem parse?_signed (hf : F.fractionBits ≠ 0) (he : F.exponentBits ≠ 0) (negative : Bool)
    {cs : List Char} {q : Rat} (h : DecimalText.Reads cs q) :
    (parse? (if negative then '-' :: cs else cs) : Option (BinaryFloat F))
      = some (ofRat negative (signed negative q)) := by
  obtain ⟨t, ht, hvalue⟩ := h.value
  have hread : ∀ sign : Bool, (parseUnsigned? sign cs : Option (BinaryFloat F))
      = some (ofRat sign (signed sign q)) := by
    intro sign
    rw [parseUnsigned?, ht, ← hvalue, DecimalText.toRat, ← ofDecimal_eq hf he]
  cases negative with
  | true => exact hread true
  | false =>
    obtain ⟨c, rest, rfl, hc⟩ := h.first
    obtain ⟨hminus, hplus⟩ := Text.ne_sign_of_isDigit hc
    rw [if_neg (by decide), ← hread false]
    unfold parse?
    split
    · rename_i heq
      exact absurd (List.cons.inj heq).1 hminus
    · rename_i heq
      exact absurd (List.cons.inj heq).1 hplus
    · rfl

end BinaryFloat

end ColumnIndex
