import ColumnIndex.Proofs.Number.DecimalRounding

/-!
# Errors of the conversion to double precision

With many digits the conversion of a decimal number may miss the nearest number of double
precision, since each of its steps is rounded. But each rounding changes a number by a small factor
only, and so does the whole way. Where no midpoint of single precision is near, the number that is
reached is narrowed as the nearest one is.

## Main definitions

* `Nearby` — two numbers that a count of roundings can lie between.
* `BinaryFloat.IsNear` — a number that few roundings make of a decimal one.

## Main statements

* `Decimal.toDouble_near` — the conversion is few roundings.
* `Decimal.convert_toDouble` — when narrowing does not notice.
-/
namespace ColumnIndex

/-- The greatest factor between a number and what it is rounded to. -/
def roundingFactor : Rat := 2 ^ 53 / (2 ^ 53 - 1)

theorem one_le_roundingFactor : 1 ≤ roundingFactor := by
  norm_num [roundingFactor]

/-- Two numbers that are not farther apart than so many roundings can bring them. -/
structure Nearby (n : Nat) (a b : Rat) : Prop where
  le : a ≤ b * roundingFactor ^ n
  ge : b ≤ a * roundingFactor ^ n

namespace Nearby

variable {a b c d : Rat} {m n : Nat}

theorem mono (h : Nearby m a b) (ha : 0 ≤ a) (hb : 0 ≤ b) (hmn : m ≤ n) : Nearby n a b where
  le := h.le.trans (by gcongr; exact one_le_roundingFactor)
  ge := h.ge.trans (by gcongr; exact one_le_roundingFactor)

/-- The roundings of two steps add up. -/
theorem trans (h : Nearby m a b) (h' : Nearby n b c) : Nearby (m + n) a c where
  le := by
    have hpos : 0 ≤ roundingFactor ^ m := by
      have := one_le_roundingFactor
      positivity
    calc a ≤ b * roundingFactor ^ m := h.le
      _ ≤ c * roundingFactor ^ n * roundingFactor ^ m := by gcongr; exact h'.le
      _ = c * roundingFactor ^ (m + n) := by ring
  ge := by
    have hpos : 0 ≤ roundingFactor ^ n := by
      have := one_le_roundingFactor
      positivity
    calc c ≤ b * roundingFactor ^ n := h'.ge
      _ ≤ a * roundingFactor ^ m * roundingFactor ^ n := by gcongr; exact h.ge
      _ = a * roundingFactor ^ (m + n) := by ring

/-- A sum is off as its parts are. -/
theorem add (h : Nearby n a b) (h' : Nearby n c d) : Nearby n (a + c) (b + d) where
  le := by
    rw [add_mul]
    exact add_le_add h.le h'.le
  ge := by
    rw [add_mul]
    exact add_le_add h.ge h'.ge

/-- The errors of the factors add up in a product. -/
theorem mul (h : Nearby m a b) (h' : Nearby n c d) (ha : 0 ≤ a) (hb : 0 ≤ b) (hc : 0 ≤ c)
    (hd : 0 ≤ d) : Nearby (m + n) (a * c) (b * d) where
  le := by
    calc a * c ≤ b * roundingFactor ^ m * (d * roundingFactor ^ n) :=
          mul_le_mul h.le h'.le hc (ha.trans h.le)
      _ = b * d * roundingFactor ^ (m + n) := by ring
  ge := by
    calc b * d ≤ a * roundingFactor ^ m * (c * roundingFactor ^ n) :=
          mul_le_mul h.ge h'.ge hd (hb.trans h.ge)
      _ = a * c * roundingFactor ^ (m + n) := by ring

theorem inv (h : Nearby n a b) (ha : 0 < a) (hb : 0 < b) : Nearby n a⁻¹ b⁻¹ where
  le := by
    rw [inv_mul_eq_div, inv_eq_one_div, div_le_div_iff₀ ha hb, one_mul, mul_comm]
    exact h.ge
  ge := by
    rw [inv_mul_eq_div, inv_eq_one_div, div_le_div_iff₀ hb ha, one_mul, mul_comm]
    exact h.le

/-- The errors of the parts add up in a quotient. -/
theorem div (h : Nearby m a b) (h' : Nearby n c d) (ha : 0 ≤ a) (hb : 0 ≤ b) (hc : 0 < c)
    (hd : 0 < d) : Nearby (m + n) (a / c) (b / d) := by
  rw [div_eq_mul_inv, div_eq_mul_inv]
  exact h.mul (h'.inv hc hd) ha hb (inv_nonneg.2 hc.le) (inv_nonneg.2 hd.le)

theorem pos (h : Nearby n a b) (hb : 0 < b) : 0 < a := by
  have hfactor : 0 < roundingFactor ^ n := by
    have := one_le_roundingFactor
    positivity
  exact pos_of_mul_pos_left (hb.trans_le h.ge) hfactor.le

/-- Rounding to double precision is one step. -/
theorem of_abs_sub_mul_le (hb : 0 ≤ b) (h : |a - b| * 2 ^ 53 ≤ b) : Nearby 1 a b := by
  obtain ⟨hhigh, hlow⟩ := Decimal.sub_le_of_abs_mul_le h
  constructor
  · rw [pow_one, roundingFactor]
    linarith
  · rw [pow_one, roundingFactor]
    linarith

/-- So few steps are not noticed in a number of fewer bits. -/
theorem abs_sub_mul_le (h : Nearby 20 a b) (hb : 0 ≤ b) : |a - b| * 2 ^ 48 ≤ b := by
  obtain ⟨hhigh, hlow⟩ := h
  have hfactor : roundingFactor ^ 20 ≤ 1 + 1 / 2 ^ 48 := by norm_num [roundingFactor]
  have ha : 0 ≤ a := by
    have hpos : 0 < roundingFactor ^ 20 := by
      have := one_le_roundingFactor
      positivity
    exact nonneg_of_mul_nonneg_left (hb.trans hlow) hpos
  have hhigh' : b * roundingFactor ^ 20 ≤ b * (1 + 1 / 2 ^ 48) := by gcongr
  have hlow' : a * roundingFactor ^ 20 ≤ a * (1 + 1 / 2 ^ 48) := by gcongr
  rw [← le_div_iff₀ (by positivity), abs_le]
  constructor
  · linarith
  · linarith

end Nearby

/-! ## The steps of a conversion -/

namespace BinaryFloat

variable {a b : Rat} {n : Nat}

/-- A number that is reached with few steps is rounded with one step more. -/
theorem exists_holds_within (h : Nearby n a b) (hn : n ≤ 19) (hleast : 1 / 2 ^ 99 ≤ b)
    (hmost : b ≤ 2 ^ 99) :
    ∃ r, (ofRat false a : Double).Holds r ∧ 0 < r ∧ Nearby (n + 1) r b := by
  have hb : 0 < b := lt_of_lt_of_le (by positivity) hleast
  have hfactor : roundingFactor ^ n ≤ 2 := by
    calc roundingFactor ^ n ≤ roundingFactor ^ 19 := pow_le_pow_right₀ one_le_roundingFactor hn
      _ ≤ 2 := by norm_num [roundingFactor]
  have hhigh : a ≤ b * 2 := h.le.trans (by gcongr)
  have ha : 0 < a := h.pos hb
  have hlow : b ≤ a * 2 := h.ge.trans (by gcongr)
  obtain ⟨r, hholds, herror⟩ := exists_holds_double (q := a) (by linarith) (by linarith)
  have hr : 0 < r := by
    have := (Decimal.sub_le_of_abs_mul_le herror).2
    linarith
  have hstep := (Nearby.of_abs_sub_mul_le ha.le herror).trans h
  rw [Nat.add_comm] at hstep
  exact ⟨r, hholds, hr, hstep⟩

/-- A whole number of ninety-six bits is one step away. -/
theorem exists_holds_ofInt (hn : n < 2 ^ 96) :
    ∃ r, (ofInt n : Double).Holds r ∧ 0 ≤ r ∧ Nearby 1 r n := by
  rcases Nat.eq_zero_or_pos n with rfl | hpos
  · refine ⟨(0 : Nat), holds_ofInt (Nat.zero_le _), le_of_eq Nat.cast_zero.symm, ?_⟩
    constructor
    · rw [Nat.cast_zero, zero_mul]
    · rw [Nat.cast_zero, zero_mul]
  · have hone : (1 : Rat) ≤ n := by exact_mod_cast hpos
    have hlimit : (n : Rat) < 2 ^ 96 := by exact_mod_cast hn
    obtain ⟨r, hholds, herror⟩ := exists_holds_double (q := n) (by linarith) (by linarith)
    have hr : 0 ≤ r := by
      have := (Decimal.sub_le_of_abs_mul_le herror).2
      linarith
    have hvalue : (ofInt n : Double) = ofRat false n := by rw [ofInt, Int.cast_natCast]
    exact ⟨r, hvalue ▸ hholds, hr, .of_abs_sub_mul_le (by linarith) herror⟩

/-- Rounding to a whole number is few steps for a great number, and none for a small one. -/
theorem exists_holds_roundHalfAway {x : Double} (hx : x.Holds a) (ha : 0 ≤ a) {c : Nat}
    (hc : c ≠ 0) (hlimit : c < 2 ^ 96) (h : Nearby 6 a c) :
    ∃ r, x.roundHalfAway.Holds r ∧ 0 < r ∧ Nearby 17 r c := by
  have hone : (1 : Rat) ≤ c := by exact_mod_cast Nat.pos_of_ne_zero hc
  have hmost : (c : Rat) < 2 ^ 96 := by exact_mod_cast hlimit
  have hsmall : roundingFactor ^ 6 ≤ 1 + 7 / 2 ^ 53 := by norm_num [roundingFactor]
  have hlarge : 1 + 16 / 2 ^ 53 ≤ roundingFactor ^ 16 := by norm_num [roundingFactor]
  have hhigh : a ≤ c * (1 + 7 / 2 ^ 53) := h.le.trans (by gcongr)
  have hlow : c ≤ a * (1 + 7 / 2 ^ 53) := h.ge.trans (by gcongr)
  obtain ⟨n, hn, hround⟩ := hx.exists_roundHalfAway_eq (by decide) ha
  obtain ⟨hbelow, habove⟩ := abs_le.1 hn
  have hwithin : Nearby 16 n c := by
    rcases lt_or_ge c (2 ^ 49) with hfew | hmany
    · have hfew' : (c : Rat) < 2 ^ 49 := by exact_mod_cast hfew
      have hnear : |a - c| < 1 / 2 := abs_lt.2 ⟨by linarith, by linarith⟩
      have hless : |(n - c : Rat)| < 1 := (abs_sub_le _ a _).trans_lt (by linarith)
      have hsame : (n : Int) = c :=
        sub_eq_zero.1 (Int.abs_lt_one_iff.1 (by exact_mod_cast hless))
      rw [Nat.cast_inj.1 hsame]
      have hfactor := le_mul_of_one_le_right (by linarith : (0 : Rat) ≤ c)
        (one_le_pow₀ one_le_roundingFactor : 1 ≤ roundingFactor ^ 16)
      exact ⟨hfactor, hfactor⟩
    · have hmany' : (2 : Rat) ^ 49 ≤ c := by exact_mod_cast hmany
      constructor
      · calc (n : Rat) ≤ c * (1 + 16 / 2 ^ 53) := by linarith
          _ ≤ c * roundingFactor ^ 16 := by gcongr
      · calc (c : Rat) ≤ n * (1 + 16 / 2 ^ 53) := by linarith
          _ ≤ n * roundingFactor ^ 16 := by gcongr
  rw [hround]
  exact exists_holds_within hwithin (by decide) (by linarith) (by linarith)

/-- A finite number has the sign of a decimal one, and is as near to it as few roundings bring
it. -/
structure IsNear (y : Double) (d : Decimal) : Prop where
  isFinite : y.isFinite
  negative : y.negative = d.negative
  near : |(|y.toRat| - |d.toRat|)| * 2 ^ 48 ≤ |d.toRat|

/-- A positive number becomes near with the sign. -/
theorem IsNear.of_holds {d : Decimal} {x : Double} {r : Rat} (hx : x.Holds r)
    (h : |(r - |d.toRat|)| * 2 ^ 48 ≤ |d.toRat|) :
    IsNear (if d.negative then x.neg else x) d := by
  have hr : |r| = r := by
    rw [← hx.toRat_eq, abs_toRat, toRat_eq_signed, hx.positive, signed_false]
  cases hsign : d.negative with
  | false =>
    refine ⟨hx.isFinite, hx.positive.trans hsign.symm, ?_⟩
    rwa [if_neg Bool.false_ne_true, hx.toRat_eq, hr]
  | true =>
    have hvalue : |x.neg.toRat| = r := by
      rw [abs_toRat, ← hr, ← hx.toRat_eq, abs_toRat]
      rfl
    have hnegative : x.neg.negative = true := by
      rw [neg, hx.positive]
      rfl
    refine ⟨hx.isFinite, hnegative.trans hsign.symm, ?_⟩
    rwa [if_pos rfl, hvalue]

/-- What is near lies on the same side of every midpoint that is not near. -/
theorem IsNear.convert_eq {y : Double} {d : Decimal} (h : y.IsNear d)
    (hapart : ∀ c, |d.toRat| < 2 ^ 48 * |(|d.toRat| - FloatFormat.single.midpoint c)|) {c : Nat}
    (hc : FloatFormat.single.Rounds |d.toRat| c) (hlt : c < FloatFormat.single.infinityCode) :
    (y.convert : Single) = ofCode d.negative c hlt.le := by
  have hnear := h.near
  rw [← le_div_iff₀ (by positivity)] at hnear
  obtain ⟨hbelow, habove⟩ := abs_le.1 hnear
  have hge : ∀ b, b + 1 = c → FloatFormat.single.midpoint b < |y.toRat| := by
    intro b hb
    have hlow := hc.ge b hb
    have hfar := hapart b
    rw [abs_of_nonneg (sub_nonneg.2 hlow)] at hfar
    linarith
  have hle : |y.toRat| < FloatFormat.single.midpoint c := by
    have hhigh := hc.le
    have hfar := hapart c
    rw [abs_sub_comm, abs_of_nonneg (sub_nonneg.2 hhigh)] at hfar
    linarith
  have hrounds : FloatFormat.single.Rounds |y.toRat| c := by
    refine ⟨fun b hb => (hge b hb).le, hle.le, ?_⟩
    rintro (⟨b, hb, hmid⟩ | hmid)
    · exact absurd hmid (hge b hb).ne'
    · exact absurd hmid hle.ne
  rw [abs_toRat] at hrounds
  rw [convert_of_isFinite h.isFinite, toRat_eq_signed,
    ofRat_signed (by decide) y.negative (FloatFormat.double.magnitude_nonneg _) hrounds hlt.le]
  exact ext h.negative rfl

end BinaryFloat

namespace Decimal

variable {d : Decimal}

/-! ## The whole way -/

/-- The conversion of a fraction reaches a number that is few steps away. -/
theorem exists_steps_within {whole rest power : Nat} (hrest : rest ≠ 0) (hless : rest < power)
    (hmost : whole * power + rest < 2 ^ 96) (hpower' : power < 2 ^ 96)
    {x y z : Double} {a b c : Rat} (hx : x.Holds a) (hy : y.Holds b) (hz : z.Holds c) (ha : 0 ≤ a)
    (hxa : Nearby 1 a whole) (hyb : Nearby 1 b rest) (hzc : Nearby 1 c power) :
    ∃ r, ((((x.add (y.div z)).mul z).roundHalfAway).div z).Holds r ∧
      Nearby 20 r ((whole * power + rest : Nat) / power) := by
  have hpos : (0 : Rat) < power := by exact_mod_cast Nat.zero_lt_of_lt hless
  have hone : (1 : Rat) ≤ power := by exact_mod_cast Nat.zero_lt_of_lt hless
  have hlimit : (power : Rat) < 2 ^ 96 := by exact_mod_cast hpower'
  have hrest' : (1 : Rat) ≤ rest := by exact_mod_cast Nat.pos_of_ne_zero hrest
  have hless' : (rest : Rat) ≤ power := by exact_mod_cast hless.le
  have hmost' : (whole * power + rest : Rat) < 2 ^ 96 := by exact_mod_cast hmost
  have hwhole : (whole : Rat) ≤ whole * power := le_mul_of_one_le_right (by positivity) hone
  have hwhole' : (0 : Rat) ≤ whole := by positivity
  have hb : 0 < b := hyb.pos (by linarith)
  have hc : 0 < c := hzc.pos hpos
  have hsmall : 1 / 2 ^ 96 ≤ (rest : Rat) / power := by
    rw [div_le_div_iff₀ (by positivity) hpos]
    linarith
  have hlarge : (rest : Rat) / power ≤ 1 := (div_le_one hpos).2 hless'
  have hnumber : ((whole + rest / power) * power : Rat) = (whole * power + rest : Nat) := by
    rw [add_mul, div_mul_cancel₀ _ hpos.ne']
    push_cast
    rfl
  obtain ⟨quotient, hquotient, -, hquotientWithin⟩ := BinaryFloat.exists_holds_within
    (hyb.div hzc hb.le (by linarith) hc hpos) (by decide) (by linarith) (by linarith)
  obtain ⟨sum, hsum, hsumPos, hsumWithin⟩ := BinaryFloat.exists_holds_within
    ((hxa.mono ha hwhole' (by decide)).add hquotientWithin) (by decide) (by linarith) (by linarith)
  obtain ⟨product, hproduct, hproductPos, hproductWithin⟩ := BinaryFloat.exists_holds_within
    (hsumWithin.mul hzc hsumPos.le (by linarith) hc.le hpos.le) (by decide)
    (by rw [hnumber]; push_cast; linarith) (by rw [hnumber]; push_cast; linarith)
  rw [hnumber] at hproductWithin
  obtain ⟨coefficient, hcoefficient, hcoefficientPos, hcoefficientWithin⟩ :=
    BinaryFloat.exists_holds_roundHalfAway hproduct hproductPos.le (by omega) hmost hproductWithin
  have hresult : (((whole * power + rest : Nat) : Rat) / power) = whole + rest / power := by
    rw [← hnumber, mul_div_cancel_right₀ _ hpos.ne']
  obtain ⟨r, hr, hrPos, hrWithin⟩ := BinaryFloat.exists_holds_within
    (hcoefficientWithin.div hzc hcoefficientPos.le (by positivity) hc hpos) (by decide)
    (by rw [hresult]; linarith) (by rw [hresult]; linarith)
  refine ⟨r, ?_, hrWithin.mono hrPos.le (by positivity) (by decide)⟩
  rw [hy.div_eq hz hc.ne', hx.add_eq hquotient, hsum.mul_eq hz, hcoefficient.div_eq hz hc.ne']
  exact hr

/-- A number with a fraction is converted to one with its sign that is near it. -/
theorem toDouble_near (hmod : d.coefficient % 10 ^ d.scale ≠ 0) : d.toDouble.IsNear d := by
  have hs : d.scale ≠ 0 := by
    intro hs
    rw [hs, pow_zero, Nat.mod_one] at hmod
    exact hmod rfl
  have hpower : 0 < 10 ^ d.scale := Nat.pow_pos (by decide)
  have hpower' : 10 ^ d.scale < 2 ^ 96 :=
    (Nat.pow_le_pow_right (by decide) d.scale_le).trans_lt (by decide : 10 ^ 28 < 2 ^ 96)
  have hparts := Nat.div_add_mod' d.coefficient (10 ^ d.scale)
  have hcoefficient := d.coefficient_lt
  have hdiv := Nat.div_le_self d.coefficient (10 ^ d.scale)
  have hrest := Nat.mod_lt d.coefficient hpower
  obtain ⟨a, hx, ha, hxa⟩ :=
    BinaryFloat.exists_holds_ofInt (n := d.coefficient / 10 ^ d.scale) (by omega)
  obtain ⟨b, hy, -, hyb⟩ :=
    BinaryFloat.exists_holds_ofInt (n := d.coefficient % 10 ^ d.scale) (by omega)
  obtain ⟨c, hz, -, hzc⟩ := BinaryFloat.exists_holds_ofInt (n := 10 ^ d.scale) hpower'
  obtain ⟨r, hholds, hwithin⟩ :=
    exists_steps_within hmod hrest (by omega) hpower' hx hy hz ha hxa hyb hzc
  have hne : ¬ (BinaryFloat.ofInt (d.coefficient % 10 ^ d.scale : Nat) : Double).isZero := by
    rw [hy.isZero_iff]
    exact (hyb.pos (by exact_mod_cast Nat.pos_of_ne_zero hmod)).ne'
  have hvalue : |d.toRat| = (d.coefficient / (10 ^ d.scale : Nat) : Rat) := by
    rw [abs_toRat]
    push_cast
    rfl
  rw [hparts, ← hvalue] at hwithin
  unfold toDouble
  dsimp only
  rw [if_neg hs, if_neg hne]
  exact .of_holds hholds (hwithin.abs_sub_mul_le (abs_nonneg _))

/-- The nearest number is near. -/
theorem nearest_near (hmod : d.coefficient % 10 ^ d.scale ≠ 0) : d.nearest.IsNear d := by
  have hpower : (10 : Rat) ^ d.scale ≤ 10 ^ 28 := pow_le_pow_right₀ (by norm_num) d.scale_le
  have hone : (1 : Rat) ≤ d.coefficient := by
    have hne : d.coefficient ≠ 0 := by
      intro hzero
      rw [hzero, Nat.zero_mod] at hmod
      exact hmod rfl
    exact_mod_cast Nat.pos_of_ne_zero hne
  have hleast : 1 / 2 ^ 100 ≤ (d.coefficient / 10 ^ d.scale : Rat) := by
    rw [div_le_div_iff₀ (by positivity) (by positivity)]
    linarith
  have hmost := d.abs_toRat_lt
  rw [abs_toRat] at hmost
  obtain ⟨r, hholds, herror⟩ :=
    BinaryFloat.exists_holds_double hleast (hmost.le.trans (by norm_num))
  rw [nearest_eq]
  refine .of_holds hholds ?_
  rw [abs_toRat]
  have hnonneg := abs_nonneg (r - d.coefficient / 10 ^ d.scale)
  linarith

/-- Where a number is not next to a midpoint of single precision, the number that it is converted
to is narrowed as the nearest one is. -/
theorem convert_toDouble (hmod : d.coefficient % 10 ^ d.scale ≠ 0)
    (hapart : ∀ c, |d.toRat| < 2 ^ 48 * |(|d.toRat| - FloatFormat.single.midpoint c)|) :
    (d.toDouble.convert : Single) = d.nearest.convert := by
  obtain ⟨c, hc⟩ := FloatFormat.exists_rounds (F := .single) (by decide) (abs_nonneg d.toRat)
  have hlt : c < FloatFormat.single.infinityCode := by
    refine hc.lt_infinityCode (by decide) (by decide) (d.abs_toRat_lt.le.trans ?_)
    exact pow_le_pow_right₀ one_le_two (by decide)
  rw [(toDouble_near hmod).convert_eq hapart hc hlt, (nearest_near hmod).convert_eq hapart hc hlt]

end Decimal

end ColumnIndex
