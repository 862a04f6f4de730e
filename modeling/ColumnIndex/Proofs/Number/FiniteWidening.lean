import ColumnIndex.Proofs.Number.FloatTexts
import ColumnIndex.Proofs.Number.Widening

/-!
# Widening of finite numbers

Double precision has every number of single precision and every midpoint between two of them. So
a number that is widened through its shortest digits stays between the midpoints around it, and
nothing that is decided there changes: it is narrowed to the same number, unless it has come to
lie on a midpoint, and its whole part is the same as long as single precision has all whole
numbers.

Main statements: `BinaryFloat.convert_widen_of_even`, `BinaryFloat.truncate?_widen`,
`BinaryFloat.widen_eq_convert`.
-/
namespace ColumnIndex

namespace FloatFormat

/-! ## Single precision within double precision -/

theorem exists_double_magnitude {n : Nat} (hn : n ≤ 2 ^ 53) {e : Int} (he : -1074 ≤ e) :
    ∃ code, double.magnitude code = n * 2 ^ e := by
  obtain ⟨d, hd⟩ : ∃ d : Nat, double.minExponent + d = e := by
    have hleast : double.minExponent = -1074 := by decide
    exact ⟨(e + 1074).toNat, by omega⟩
  rw [← hd]
  exact exists_magnitude_eq hn d

theorem single_exponent_ge (code : Nat) : -149 ≤ single.exponent code := by
  have hleast : single.minExponent = -149 := by decide
  rw [exponent_eq]
  omega

theorem exists_double_magnitude_single (code : Nat) :
    ∃ c, double.magnitude c = single.magnitude code := by
  have hlt : single.significand code < 2 ^ 24 := single.significand_lt code
  have he := single_exponent_ge code
  exact exists_double_magnitude (by omega) (by omega)

theorem exists_double_midpoint (code : Nat) : ∃ c, double.magnitude c = single.midpoint code := by
  have hlt : single.significand code < 2 ^ 24 := single.significand_lt code
  have he := single_exponent_ge code
  have hvalue : single.midpoint code
      = (4 * single.significand code + 2 : Nat) * 2 ^ (single.exponent code - 2) :=
    midpoint_eq_quarters code
  rw [hvalue]
  exact exists_double_magnitude (by omega) (by omega)

theorem single_magnitude_lt {code : Nat} (h : code < single.infinityCode) :
    single.magnitude code < 2 ^ 128 := by
  rw [lt_infinityCode_iff single (by decide)] at h
  exact h

variable {q : Rat} {code : Nat}

/-- Rounding to double precision does not pass a midpoint of single precision. -/
theorem Rounds.le_midpoint (h : double.Rounds q code) {c : Nat} (hq : q ≤ single.midpoint c) :
    double.magnitude code ≤ single.midpoint c := by
  obtain ⟨c', hc'⟩ := exists_double_midpoint c
  rw [← hc'] at hq ⊢
  exact double.magnitude_strictMono.monotone (h.le_of_le_magnitude hq)

theorem Rounds.midpoint_le (h : double.Rounds q code) {c : Nat} (hq : single.midpoint c ≤ q) :
    single.midpoint c ≤ double.magnitude code := by
  obtain ⟨c', hc'⟩ := exists_double_midpoint c
  rw [← hc'] at hq ⊢
  exact double.magnitude_strictMono.monotone (h.ge_of_magnitude_le hq)

end FloatFormat

namespace BinaryFloat

variable {F : FloatFormat}

/-- A finite number is determined by its sign and by what it denotes. -/
theorem eq_of_toRat {x y : BinaryFloat F} (hsign : x.negative = y.negative)
    (h : x.toRat = y.toRat) : x = y := by
  apply ext hsign
  rw [toRat_eq_signed, toRat_eq_signed, hsign, signed_inj] at h
  exact F.magnitude_strictMono.injective h

variable {x : Single}

/-- What a finite number is widened to. -/
theorem widen_spec (hx : x.isFinite) :
    x.widen.isFinite ∧ x.widen.negative = x.negative ∧
      FloatFormat.double.Rounds x.writtenRat x.widen.code := by
  obtain ⟨code, hcode⟩ := FloatFormat.exists_rounds (F := .double) (by decide) x.writtenRat_nonneg
  have hrounds := x.rounds_writtenRat (by decide)
  have hfinite : code < FloatFormat.double.infinityCode := by
    have hbelow : x.code < FloatFormat.single.infinityCode := isFinite_iff.1 hx
    rw [FloatFormat.lt_infinityCode_iff _ (by decide)]
    calc FloatFormat.double.magnitude code ≤ FloatFormat.single.midpoint x.code :=
          hcode.le_midpoint hrounds.le
      _ < FloatFormat.single.magnitude (x.code + 1) :=
          FloatFormat.midpoint_lt_magnitude_succ _
      _ ≤ FloatFormat.single.magnitude FloatFormat.single.infinityCode :=
          FloatFormat.single.magnitude_strictMono.monotone hbelow
      _ = 2 ^ 128 := FloatFormat.single.magnitude_infinityCode (by decide)
      _ ≤ 2 ^ 1024 := pow_le_pow_right₀ one_le_two (by decide)
  have hwiden : x.widen = ofCode x.negative code hfinite.le := by
    rw [widen, parse?_chars (by decide) (by decide) hx, Option.getD_some,
      ofRat_signed (by decide) x.negative x.writtenRat_nonneg hcode hfinite.le]
  rw [hwiden]
  exact ⟨decide_eq_true hfinite, rfl, hcode⟩

/-- The magnitude that a finite number is widened to lies between the midpoints around it. -/
theorem widen_between (hx : x.isFinite) :
    (∀ c, c + 1 = x.code →
        FloatFormat.single.midpoint c ≤ FloatFormat.double.magnitude x.widen.code) ∧
      FloatFormat.double.magnitude x.widen.code ≤ FloatFormat.single.midpoint x.code := by
  obtain ⟨-, -, hcode⟩ := widen_spec hx
  have hrounds := x.rounds_writtenRat (by decide)
  exact ⟨fun c hc => hcode.midpoint_le (hrounds.ge c hc), hcode.le_midpoint hrounds.le⟩

/-! ## Narrowing -/

/-- Conversion of a finite number is one rounding. -/
theorem convert_of_isFinite {G : FloatFormat} {x : BinaryFloat F} (hx : x.isFinite) :
    (x.convert : BinaryFloat G) = ofRat x.negative x.toRat := by
  rw [convert, not_isNaN_of_isFinite hx, not_isInfinite_of_isFinite hx]
  rfl

/-- Only a finite number is converted to a finite one. -/
theorem isFinite_of_convert {G : FloatFormat} {x : BinaryFloat F}
    (h : (x.convert : BinaryFloat G).isFinite) : x.isFinite := by
  rw [convert] at h
  split at h
  · simp [nan, isFinite] at h
  · rename_i hnan
    split at h
    · simp [infinity, isFinite] at h
    · rename_i hinf
      exact ((finite_or x).resolve_right fun h => h.elim hinf hnan)

/-- Conversion to double precision changes nothing. -/
theorem convert_spec (hx : x.isFinite) :
    (x.convert : Double).isFinite ∧ (x.convert : Double).negative = x.negative ∧
      (x.convert : Double).toRat = x.toRat := by
  obtain ⟨c, hc⟩ := FloatFormat.exists_double_magnitude_single x.code
  have hrounds : FloatFormat.double.Rounds (FloatFormat.single.magnitude x.code) c := by
    rw [← hc]
    exact FloatFormat.Rounds.magnitude c
  have hfinite : c < FloatFormat.double.infinityCode := by
    rw [FloatFormat.lt_infinityCode_iff _ (by decide), hc]
    exact (FloatFormat.single_magnitude_lt (isFinite_iff.1 hx)).trans_le
      (pow_le_pow_right₀ one_le_two (by decide))
  have hconvert : (x.convert : Double) = ofCode x.negative c hfinite.le := by
    rw [convert_of_isFinite hx, toRat_eq_signed,
      ofRat_signed (by decide) x.negative (FloatFormat.single.magnitude_nonneg _) hrounds]
  rw [hconvert]
  refine ⟨decide_eq_true hfinite, rfl, ?_⟩
  rw [toRat_eq_signed, toRat_eq_signed, negative_ofCode, code_ofCode, hc]

/-- A number that is widened to what it denotes is converted to the same number. -/
theorem widen_eq_convert (hx : x.isFinite) (h : x.widen.toRat = x.toRat) :
    x.widen = x.convert := by
  obtain ⟨-, hwiden, -⟩ := widen_spec hx
  obtain ⟨-, hconvert, hvalue⟩ := convert_spec hx
  exact eq_of_toRat (hwiden.trans hconvert.symm) (h.trans hvalue.symm)

/-- A number of double precision that is rounded to a finite one of single precision. -/
theorem convert_eq_of_rounds {y : Double} (hx : x.isFinite) (hy : y.isFinite)
    (hsign : y.negative = x.negative)
    (h : FloatFormat.single.Rounds (FloatFormat.double.magnitude y.code) x.code) :
    (y.convert : Single) = x := by
  rw [convert_of_isFinite hy, toRat_eq_signed,
    ofRat_signed (by decide) y.negative (FloatFormat.double.magnitude_nonneg _) h
      (isFinite_iff.1 hx).le]
  exact ext hsign rfl

theorem convert_convert (hx : x.isFinite) : ((x.convert : Double).convert : Single) = x := by
  obtain ⟨hfinite, hsign, hvalue⟩ := convert_spec hx
  rw [convert_of_isFinite hfinite, hsign, hvalue, ofRat_toRat (by decide) hx]

/-- A number with an even code is narrowed again from what it is widened to, even if that is a
midpoint. -/
theorem convert_widen_of_even (hx : x.isFinite) (heven : x.code % 2 = 0) :
    (x.widen.convert : Single) = x := by
  obtain ⟨hfinite, hsign, -⟩ := widen_spec hx
  obtain ⟨hge, hle⟩ := widen_between hx
  exact convert_eq_of_rounds hx hfinite hsign ⟨hge, hle, fun _ => heven⟩

/-! ## Whole parts -/

/-- Below this limit the steps of single precision are not longer than one. -/
theorem single_exponent_le {code : Nat} (h : FloatFormat.single.magnitude code < 2 ^ 24) :
    FloatFormat.single.exponent code ≤ 0 := by
  rcases FloatFormat.single.shift_eq_zero_or code with hshift | hfull
  · rw [FloatFormat.exponent_eq, hshift]
    decide
  · have hfull' : ((2 : Rat) ^ 23) ≤ FloatFormat.single.significand code := by exact_mod_cast hfull
    have hlt : (2 : Rat) ^ (23 + FloatFormat.single.exponent code) < 2 ^ (24 : Int) := by
      calc (2 : Rat) ^ (23 + FloatFormat.single.exponent code)
          = 2 ^ 23 * 2 ^ FloatFormat.single.exponent code := by
            rw [zpow_add₀ two_ne_zero]
            rfl
        _ ≤ FloatFormat.single.significand code * 2 ^ FloatFormat.single.exponent code := by
            gcongr
        _ < 2 ^ (24 : Int) := by exact_mod_cast h
    have := (zpow_lt_zpow_iff_right₀ one_lt_two).1 hlt
    omega

/-- Every whole number up to the limit is a magnitude of single precision. -/
theorem exists_single_magnitude {n : Nat} (hn : n ≤ 2 ^ 24) :
    ∃ c, FloatFormat.single.magnitude c = n := by
  obtain ⟨c, hc⟩ := FloatFormat.exists_magnitude_eq (F := .single) hn 149
  have hexponent : FloatFormat.single.minExponent + (149 : Nat) = 0 := by decide
  rw [hexponent, zpow_zero, mul_one] at hc
  exact ⟨c, hc⟩

/-- A whole number below the limit is written with its own digits. -/
theorem writtenRat_of_whole {n : Nat} (h : FloatFormat.single.magnitude x.code = n)
    (hn : n < 2 ^ 24) : x.writtenRat = n := by
  unfold writtenRat
  split
  · rename_i hzero
    rw [isZero, beq_iff_eq] at hzero
    rw [← h, hzero, FloatFormat.magnitude_zero]
  · rename_i hzero
    have hne : n ≠ 0 := by
      rintro rfl
      apply hzero
      rw [isZero, beq_iff_eq]
      apply FloatFormat.single.magnitude_strictMono.injective
      rw [h, FloatFormat.magnitude_zero, Nat.cast_zero]
    have hlimit : FloatFormat.single.magnitude x.code < 2 ^ 24 := by
      rw [h]
      exact_mod_cast hn
    exact FloatFormat.toRat_shortest_of_whole (by decide) .up hne h (single_exponent_le hlimit)
      (hn.trans (by decide))

/-- A whole number below the limit is widened to itself. -/
theorem magnitude_widen_of_whole (hx : x.isFinite) {n : Nat}
    (h : FloatFormat.single.magnitude x.code = n) (hn : n < 2 ^ 24) :
    FloatFormat.double.magnitude x.widen.code = n := by
  obtain ⟨c, hc⟩ := FloatFormat.exists_double_magnitude (n := n) (e := 0) (by omega) (by decide)
  rw [zpow_zero, mul_one] at hc
  obtain ⟨-, -, hcode⟩ := widen_spec hx
  rw [writtenRat_of_whole h hn, ← hc] at hcode
  rw [hcode.unique (FloatFormat.Rounds.magnitude c), hc]

theorem toRat_widen_of_whole (hx : x.isFinite) (hlimit : |x.toRat| < 2 ^ 24)
    (hwhole : x.toRat.den = 1) : x.widen.toRat = x.toRat := by
  obtain ⟨-, hsign, -⟩ := widen_spec hx
  have hmagnitude : FloatFormat.single.magnitude x.code = x.toRat.num.natAbs := by
    rw [← abs_signed x.negative (FloatFormat.single.magnitude_nonneg x.code), ← toRat_eq_signed,
      abs_eq_natAbs_div, hwhole, Nat.cast_one, div_one]
  have hn : x.toRat.num.natAbs < 2 ^ 24 := by
    rw [toRat_eq_signed, abs_signed _ (FloatFormat.single.magnitude_nonneg _), hmagnitude] at hlimit
    exact_mod_cast hlimit
  rw [toRat_eq_signed x.widen, hsign, magnitude_widen_of_whole hx hmagnitude hn, ← hmagnitude]
  rfl

/-- The magnitude that a number below the limit is widened to has the same whole part. -/
theorem truncate_magnitude_widen (hx : x.isFinite)
    (hlimit : FloatFormat.single.magnitude x.code < 2 ^ 24) :
    truncate (FloatFormat.double.magnitude x.widen.code)
      = truncate (FloatFormat.single.magnitude x.code) := by
  have hnonneg := FloatFormat.single.magnitude_nonneg x.code
  obtain ⟨n, hle, hlt⟩ : ∃ n : Nat, (n : Rat) ≤ FloatFormat.single.magnitude x.code ∧
      FloatFormat.single.magnitude x.code < n + 1 :=
    ⟨⌊FloatFormat.single.magnitude x.code⌋₊, Nat.floor_le hnonneg, Nat.lt_floor_add_one _⟩
  have hn : n < 2 ^ 24 := by
    have : (n : Rat) < 2 ^ 24 := hle.trans_lt hlimit
    exact_mod_cast this
  rw [truncate_eq_of_le hle hlt]
  rcases eq_or_lt_of_le hle with hwhole | hbetween
  · -- A whole number is its own shortest form, so it is kept.
    rw [magnitude_widen_of_whole hx hwhole.symm hn]
    exact truncate_eq_of_le le_rfl (lt_add_one _)
  · -- The midpoints around any other number lie between the same whole numbers.
    obtain ⟨c, hc⟩ := exists_single_magnitude (n := n) (by omega)
    obtain ⟨c', hc'⟩ := exists_single_magnitude (n := n + 1) (by omega)
    obtain ⟨hge, hle'⟩ := widen_between hx
    have hcode : c < x.code := by
      rw [← FloatFormat.single.magnitude_strictMono.lt_iff_lt, hc]
      exact hbetween
    have hcode' : x.code < c' := by
      rw [← FloatFormat.single.magnitude_strictMono.lt_iff_lt, hc']
      push_cast
      exact hlt
    obtain ⟨before, hbefore⟩ : ∃ before, before + 1 = x.code := ⟨x.code - 1, by omega⟩
    apply truncate_eq_of_le
    · calc (n : Rat) = FloatFormat.single.magnitude c := hc.symm
        _ ≤ FloatFormat.single.magnitude before :=
            FloatFormat.single.magnitude_strictMono.monotone (by omega)
        _ ≤ FloatFormat.single.midpoint before := (FloatFormat.magnitude_lt_midpoint _).le
        _ ≤ FloatFormat.double.magnitude x.widen.code := hge before hbefore
    · calc FloatFormat.double.magnitude x.widen.code ≤ FloatFormat.single.midpoint x.code := hle'
        _ < FloatFormat.single.magnitude (x.code + 1) := FloatFormat.midpoint_lt_magnitude_succ _
        _ ≤ FloatFormat.single.magnitude c' :=
            FloatFormat.single.magnitude_strictMono.monotone hcode'
        _ = n + 1 := by rw [hc']; push_cast; rfl

/-- A number below the limit is widened to one with the same whole part. -/
theorem truncate?_widen (hx : x.isFinite) (hlimit : |x.toRat| < 2 ^ 24) :
    x.widen.truncate? = x.truncate? := by
  obtain ⟨hfinite, hsign, -⟩ := widen_spec hx
  rw [toRat_eq_signed, abs_signed _ (FloatFormat.single.magnitude_nonneg _)] at hlimit
  rw [truncate?, truncate?, toRat?, toRat?, if_pos hfinite, if_pos hx, Option.map_some,
    Option.map_some, toRat_eq_signed, toRat_eq_signed, hsign, truncate_signed, truncate_signed,
    truncate_magnitude_widen hx hlimit]

end BinaryFloat

end ColumnIndex
