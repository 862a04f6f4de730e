import ColumnIndex.Proofs.Json.ScaledNumbers
import ColumnIndex.Proofs.Number.PlainTexts
import ColumnIndex.Proofs.Number.Shortest
import ColumnIndex.Proofs.WholeParts

/-!
# Whole parts of plain decimal texts

A mapper of whole numbers keeps the whole part of what a text is read as, and a text with a point
is read as the number of double precision nearest to what it denotes. A whole number that double
precision has is not passed by rounding, but it can be reached. So a text is answered with the
whole part of what it denotes unless that is next to the whole number above it, and a number out of
range is refused unless it is rounded to the least one in range.

## Main definitions

* `PlainDecimal.readRat?` — the number that a text is read as.
* `PlainDecimal.KeepsWhole` — when rounding does not change the whole part.

Main statement: `Mapper.base_plain_text`.
-/
namespace ColumnIndex

open Outcome

/-! ## Rounding next to whole numbers -/

namespace BinaryFloat

variable {x : Double} {q : Rat}

/-- What lies above a midpoint is rounded above it. -/
theorem IsNearest.magnitude_succ_le (h : x.IsNearest q) {c : Nat}
    (hq : FloatFormat.double.midpoint c < q) :
    FloatFormat.double.magnitude (c + 1) ≤ x.toRat := by
  obtain ⟨code, hcode, hholds⟩ := h
  rw [hholds.toRat_eq]
  have hlt : c < code := by
    by_contra hle
    have hmono := FloatFormat.midpoint_strictMono (F := .double).monotone (not_lt.1 hle)
    exact absurd (hcode.le.trans hmono) (not_le.2 hq)
  exact FloatFormat.double.magnitude_strictMono.monotone hlt

/-- A number is rounded as its magnitude is. -/
theorem toRat?_ofRat_signed (negative : Bool) (hq : 0 ≤ q) :
    (ofRat negative (signed negative q) : Double).toRat?
      = (ofRat false q : Double).toRat?.map (signed negative) := by
  cases negative with
  | false => exact (congrFun Option.map_id _).symm
  | true =>
    rw [signed_true, ← neg_ofRat hq]
    have hfinite : (ofRat false q : Double).neg.isFinite = (ofRat false q : Double).isFinite := rfl
    have hpositive : (ofRat false q : Double).negative = false := negative_ofRat_signed false hq
    have hvalue : (ofRat false q : Double).neg.toRat = -(ofRat false q : Double).toRat := by
      rw [toRat_eq_signed, toRat_eq_signed, neg, hpositive]
      rfl
    rw [toRat?, toRat?, hfinite, hvalue]
    split
    · rfl
    · rfl

/-- A number that is rounded to a finite one is rounded to the nearest. -/
theorem isNearest_of_toRat? (hq : 0 ≤ q) {r : Rat}
    (h : (ofRat false q : Double).toRat? = some r) :
    (ofRat false q : Double).IsNearest q ∧ (ofRat false q : Double).toRat = r := by
  rw [toRat?, Option.ite_none_right_eq_some] at h
  obtain ⟨hfinite, hvalue⟩ := h
  exact ⟨isNearest_of_isInfinite_eq (by decide) hq (not_isInfinite_of_isFinite hfinite),
    Option.some.inj hvalue⟩

/-- The code of the first power of two that does not fit sixty-four bits with a sign. -/
def signedLimitCode : Nat := 1086 * 2 ^ 52

theorem magnitude_signedLimitCode : FloatFormat.double.magnitude signedLimitCode = 2 ^ 63 := by
  decide +kernel

theorem magnitude_succ_signedLimitCode :
    FloatFormat.double.magnitude (signedLimitCode + 1) = 2 ^ 63 + 2048 := by
  decide +kernel

theorem midpoint_signedLimitCode :
    FloatFormat.double.midpoint signedLimitCode = 2 ^ 63 + 1024 := by
  decide +kernel

/-- More than half a step above that power of two a number is not rounded to it. -/
theorem IsNearest.limit_lt_floor (h : x.IsNearest q) (hq : 2 ^ 63 + 1024 < q) :
    2 ^ 63 < ⌊x.toRat⌋ := by
  rw [← midpoint_signedLimitCode] at hq
  have hnext := h.magnitude_succ_le hq
  rw [magnitude_succ_signedLimitCode] at hnext
  have hfloor : (2 ^ 63 + 2048 : Int) ≤ ⌊x.toRat⌋ := by
    rw [Int.le_floor]
    exact_mod_cast hnext
  omega

/-- Half a step above that power of two a number is still rounded to it. -/
theorem IsNearest.toRat_eq_limit (h : x.IsNearest q) (hlow : 2 ^ 63 ≤ q)
    (hhigh : q ≤ 2 ^ 63 + 1024) : x.toRat = 2 ^ 63 := by
  obtain ⟨code, hcode, hholds⟩ := h
  have hge : signedLimitCode ≤ code :=
    hcode.ge_of_magnitude_le (by rwa [magnitude_signedLimitCode])
  have hle : code ≤ signedLimitCode + signedLimitCode % 2 :=
    hcode.mono (FloatFormat.Rounds.midpoint signedLimitCode) (by rwa [midpoint_signedLimitCode])
  have heven : signedLimitCode % 2 = 0 := by decide
  obtain rfl : code = signedLimitCode := by omega
  rw [hholds.toRat_eq, magnitude_signedLimitCode]

end BinaryFloat

/-- The least magnitude that is out of range with a sign. -/
def MapperTag.wholeLimit : MapperTag → Bool → Nat
  | .integer, negative => 2 ^ 31 + negative.toNat
  | .long, negative => 2 ^ 63 + negative.toNat
  | _, _ => 0

theorem MapperTag.notMem_wholeRange_iff {t : MapperTag} (ht : t ∈ wholeTags) (negative : Bool)
    {n : Int} (hn : 0 ≤ n) :
    (if negative then -n else n) ∉ t.wholeRange ↔ (t.wholeLimit negative : Int) ≤ n := by
  rcases List.mem_pair.1 ht with rfl | rfl
  · simp only [wholeRange, wholeLimit, Set.mem_ofPred_eq]
    cases negative with
    | false => simp only [Bool.false_eq_true, if_false, Bool.toNat_false]; omega
    | true => simp only [if_true, Bool.toNat_true]; omega
  · simp only [wholeRange, wholeLimit, Set.mem_ofPred_eq]
    cases negative with
    | false => simp only [Bool.false_eq_true, if_false, Bool.toNat_false]; omega
    | true => simp only [if_true, Bool.toNat_true]; omega

theorem wholePart_signed (negative : Bool) {q : Rat} (hq : 0 ≤ q) :
    wholePart (signed negative q) = if negative then -⌊q⌋ else ⌊q⌋ := by
  cases negative with
  | false => exact if_pos hq
  | true => rw [signed_true, wholePart_neg, wholePart, if_pos hq, if_pos rfl]

/-! ## What texts are read as -/

namespace PlainDecimal

variable (p : PlainDecimal)

/-- The number that the text is read as, if that is finite. -/
def readRat? : Option Rat := if p.IsLong then some p.toRat else p.nearest.toRat?

/-- A text that is rounded comes within half a step of the least whole number of sixty-four bits. -/
def IsBelowLong : Prop := -(2 ^ 63 + 1024) ≤ p.toRat ∧ p.toRat ≤ -2 ^ 63

/-- When a mapper of the kind does not notice that the text is rounded: it is not rounded, it has
few digits, the next whole number is farther away than a step, or it is out of range either way. -/
inductive KeepsWhole (t : MapperTag) : Prop
  | long (h : p.IsLong)
  | short (h : p.coefficient < 2 ^ 53)
  | apart (h : p.magnitude * (2 ^ 53 + 1) < (⌊p.magnitude⌋ + 1) * 2 ^ 53)
  | outside (h : wholePart p.toRat ∉ t.wholeRange) (hlong : t = .long → ¬ p.IsBelowLong)

theorem toRat?_of_isSpelledBy {text : String} (h : p.IsSpelledBy text) :
    (Numeric.ofValue? (.text text)).bind Numeric.toRat? = p.readRat? := by
  rw [Numeric.ofValue?, p.parse?_numeric h, Option.bind_some, readRat?]
  by_cases hlong : p.IsLong
  · rw [if_pos hlong, if_pos hlong, Numeric.toRat?, p.toRat_of_fraction hlong.1]
  · rw [if_neg hlong, if_neg hlong, Numeric.toRat?]

theorem wholePart_toRat :
    wholePart p.toRat = if p.sign.negative then -⌊p.magnitude⌋ else ⌊p.magnitude⌋ :=
  wholePart_signed _ p.magnitude_nonneg

/-- A text is read as what it denotes, or as a nearest number with its sign. -/
theorem readRat?_cases {r : Rat} (h : p.readRat? = some r) :
    r = p.toRat ∨ ∃ x : Double, x.IsNearest p.magnitude ∧ r = signed p.sign.negative x.toRat := by
  unfold readRat? at h
  split at h
  · exact .inl (Option.some.inj h).symm
  · rw [nearest, toRat, BinaryFloat.toRat?_ofRat_signed _ p.magnitude_nonneg,
      Option.map_eq_some_iff] at h
    obtain ⟨m, hm, rfl⟩ := h
    obtain ⟨hnearest, hvalue⟩ := BinaryFloat.isNearest_of_toRat? p.magnitude_nonneg hm
    exact .inr ⟨_, hnearest, by rw [hvalue]⟩

/-- A text that is not too large is read as a finite number. -/
theorem exists_nearest_of_lt (h : p.magnitude < 2 ^ 64) :
    ∃ x : Double, x.IsNearest p.magnitude ∧
      p.nearest.toRat? = some (signed p.sign.negative x.toRat) := by
  have hfinite := FloatFormat.natCast_lt_overflow (n := 2 ^ 64) (by decide +kernel)
  rw [Nat.cast_pow, Nat.cast_ofNat] at hfinite
  have hnearest := BinaryFloat.isNearest_ofRat (F := .double) (by decide)
    FloatFormat.double_infinityCode_ne p.magnitude_nonneg (h.trans hfinite)
  refine ⟨_, hnearest, ?_⟩
  rw [nearest, toRat, BinaryFloat.toRat?_ofRat_signed _ p.magnitude_nonneg, BinaryFloat.toRat?,
    if_pos hnearest.holds.isFinite, Option.map_some]

/-- A text of few digits is far enough from the next whole number. -/
theorem apart_of_coefficient_lt (h : p.coefficient < 2 ^ 53) :
    p.magnitude * (2 ^ 53 + 1) < (⌊p.magnitude⌋ + 1) * 2 ^ 53 :=
  apart_of_lt p.places h

/-- Far enough from the next whole number, a text is read as a number of the same whole part. -/
theorem exists_readRat?_of_apart
    (h : p.magnitude * (2 ^ 53 + 1) < (⌊p.magnitude⌋ + 1) * 2 ^ 53) :
    ∃ r, p.readRat? = some r ∧ wholePart r = wholePart p.toRat := by
  by_cases hlong : p.IsLong
  · exact ⟨p.toRat, if_pos hlong, rfl⟩
  have hfloor : (⌊p.magnitude⌋ : Rat) ≤ p.magnitude := Int.floor_le _
  obtain ⟨x, hx, hread⟩ := p.exists_nearest_of_lt (by linarith)
  refine ⟨signed p.sign.negative x.toRat, by rw [readRat?, if_neg hlong, hread], ?_⟩
  rw [wholePart_signed _ hx.nonneg, hx.floor_eq p.magnitude_nonneg h, p.wholePart_toRat]

/-- Out of range, a text is not read as a number in range. -/
theorem wholePart_notMem_of_readRat? {t : MapperTag} (ht : t ∈ wholeTags)
    (hout : wholePart p.toRat ∉ t.wholeRange) (hlong : t = .long → ¬ p.IsBelowLong) {r : Rat}
    (hr : p.readRat? = some r) : wholePart r ∉ t.wholeRange := by
  rcases p.readRat?_cases hr with rfl | ⟨x, hx, rfl⟩
  · exact hout
  rw [wholePart_toRat,
    MapperTag.notMem_wholeRange_iff ht _ (Int.floor_nonneg.2 p.magnitude_nonneg)] at hout
  rw [wholePart_signed _ hx.nonneg,
    MapperTag.notMem_wholeRange_iff ht _ (Int.floor_nonneg.2 hx.nonneg)]
  rcases List.mem_pair.1 ht with rfl | rfl
  · have hbits : 2 ^ 31 + p.sign.negative.toNat ≤ 2 ^ 53 := by
      have := p.sign.negative.toNat_le
      omega
    have hkept := hx.le_floor hbits 0
    rw [pow_zero, Nat.mul_one] at hkept
    exact hkept hout
  · cases hsign : p.sign.negative with
    | false =>
      rw [hsign] at hout
      exact hx.le_floor (n := 1) (by decide) 63 hout
    | true =>
      -- With this sign the bound is not a number of double precision, so it can be passed.
      rw [hsign] at hout
      have hlimit : (2 : Rat) ^ 63 ≤ p.magnitude := by
        have h := Int.le_floor.1 hout
        push_cast [MapperTag.wholeLimit, Bool.toNat_true] at h
        linarith
      have hbeyond : (2 : Rat) ^ 63 + 1024 < p.magnitude := by
        by_contra hle
        apply hlong rfl
        rw [IsBelowLong, toRat, hsign, signed_true]
        constructor
        · linarith
        · linarith
      exact hx.limit_lt_floor hbeyond

/-- Just below the least whole number of sixty-four bits, a text is read as that number. -/
theorem readRat?_of_isBelowLong (h : p.IsBelowLong) : p.readRat? = some (-2 ^ 63) := by
  obtain ⟨hlow, hhigh⟩ := h
  have hsign : p.sign.negative = true := by
    by_contra hpositive
    rw [toRat, Bool.eq_false_of_not_eq_true hpositive, signed_false] at hhigh
    have := p.magnitude_nonneg
    linarith
  unfold readRat?
  split
  · rename_i hlong
    rw [p.toRat_of_fraction hlong.1] at hhigh ⊢
    have hleast : p.integer ≤ -2 ^ 63 := by exact_mod_cast hhigh
    rw [le_antisymm hleast hlong.2.1]
    norm_num
  · rw [toRat, hsign, signed_true] at hlow hhigh
    have hmost : p.magnitude ≤ 2 ^ 63 + 1024 := by linarith
    obtain ⟨x, hx, hread⟩ := p.exists_nearest_of_lt (by linarith)
    rw [hread, hx.toRat_eq_limit (by linarith) hmost, hsign, signed_true]

end PlainDecimal

/-! ## Mappers of whole numbers -/

namespace Mapper

variable {m : Mapper} {column : String} {v : Value}

/-- Only the whole part of a number matters. -/
theorem Truncates.congr {q r : Rat} (h : m.Truncates column v (some r))
    (hwhole : wholePart r = wholePart q) : m.Truncates column v (some q) := by
  constructor
  · intro q' hq' hrange
    obtain rfl := Option.some.inj hq'
    rw [← hwhole] at hrange ⊢
    exact h.accepts r rfl hrange
  · intro hrange
    refine h.refuses fun r' hr' => ?_
    obtain rfl := Option.some.inj hr'
    rw [hwhole]
    exact hrange q rfl

/-- Numbers out of range are refused alike. -/
theorem Truncates.of_outside {q? : Option Rat} {q : Rat} (h : m.Truncates column v q?)
    (hread : ∀ r, q? = some r → wholePart r ∉ m.tag.wholeRange)
    (hout : wholePart q ∉ m.tag.wholeRange) : m.Truncates column v (some q) where
  accepts q' hq' hrange := by
    obtain rfl := Option.some.inj hq'
    exact absurd hrange hout
  refuses _ := h.refuses hread

/-- A mapper of whole numbers answers a plain decimal text with the whole part of what it is read
as. That is the whole part of what the text denotes where rounding keeps it, and texts out of range
are refused, apart from those that are rounded to the least whole number of sixty-four bits. -/
theorem base_plain_text (hm : m.tag ∈ wholeTags) (column : String) {text : String}
    {p : PlainDecimal} (h : p.IsSpelledBy text) :
    m.Truncates column (.text text) p.readRat? ∧
      (p.KeepsWhole m.tag → m.Truncates column (.text text) (some p.toRat)) ∧
      (p.IsBelowLong → m.Truncates column (.text text) (some (-2 ^ 63))) := by
  have hread : m.Truncates column (.text text) p.readRat? :=
    truncates_of_read hm rfl (p.toRat?_of_isSpelledBy h)
  have hapart : p.magnitude * (2 ^ 53 + 1) < (⌊p.magnitude⌋ + 1) * 2 ^ 53 →
      m.Truncates column (.text text) (some p.toRat) := by
    intro hapart
    obtain ⟨r, hr, hwhole⟩ := p.exists_readRat?_of_apart hapart
    rw [hr] at hread
    exact hread.congr hwhole
  refine ⟨hread, ?_, ?_⟩
  · intro hkeeps
    cases hkeeps with
    | long hlong =>
      rwa [PlainDecimal.readRat?, if_pos hlong] at hread
    | short hcoefficient => exact hapart (p.apart_of_coefficient_lt hcoefficient)
    | apart h => exact hapart h
    | outside hout hlong =>
      exact hread.of_outside (fun r hr => p.wholePart_notMem_of_readRat? hm hout hlong hr) hout
  · intro hbelow
    rwa [p.readRat?_of_isBelowLong hbelow] at hread

/-- Many digits, but all near the whole number on the side of zero. -/
def sampleLeastText : PlainDecimal where
  sign := .minus
  whole := "2147483648".toList
  fraction := "00000000000000000001".toList
  whole_ne_nil := by decide
  isDigit_whole := List.all_eq_true.1 rfl
  isDigit_fraction := List.all_eq_true.1 rfl

/-- The fraction is cut off at the end of the range. -/
theorem base_plain_text_least :
    sampleLeastText.IsSpelledBy " -2147483648.00000000000000000001 " ∧
      wholePart sampleLeastText.toRat = -2147483648 ∧
      sampleStock.Truncates "stock" (.text " -2147483648.00000000000000000001 ")
        (some sampleLeastText.toRat) := by
  have hspelled : sampleLeastText.IsSpelledBy " -2147483648.00000000000000000001 " :=
    ⟨[' '], [' '], List.all_eq_true.1 rfl, rfl⟩
  obtain ⟨-, hkeeps, -⟩ := base_plain_text (m := sampleStock) (by decide) "stock" hspelled
  exact ⟨hspelled, by decide +kernel, hkeeps (.apart (by decide +kernel))⟩

/-- Closer to two than any number of double precision. -/
def sampleAlmostTwo : PlainDecimal where
  sign := .absent
  whole := "1".toList
  fraction := "99999999999999999999".toList
  whole_ne_nil := by decide
  isDigit_whole := List.all_eq_true.1 rfl
  isDigit_fraction := List.all_eq_true.1 rfl

/-- The first whole number below those of sixty-four bits. -/
def sampleBelowLong : PlainDecimal where
  sign := .minus
  whole := "9223372036854775809".toList
  fraction := []
  whole_ne_nil := by decide
  isDigit_whole := List.all_eq_true.1 rfl
  isDigit_fraction := List.all_eq_true.1 rfl

/-- A fraction next to two is answered with two, and a whole number out of range is answered. -/
theorem base_plain_text_rounds :
    (sampleAlmostTwo.IsSpelledBy "1.99999999999999999999" ∧
      wholePart sampleAlmostTwo.toRat = 1 ∧
      (sampleStock.base "stock" (.text "1.99999999999999999999")).result = .ok (some (.int 2))) ∧
    sampleBelowLong.IsSpelledBy "-9223372036854775809" ∧
      wholePart sampleBelowLong.toRat ∉ sampleSold.tag.wholeRange ∧
      (sampleSold.base "sold" (.text "-9223372036854775809")).result
        = .ok (some (.long (-9223372036854775808))) := by
  have htwo : sampleAlmostTwo.IsSpelledBy "1.99999999999999999999" := ⟨[], [], by simp, rfl⟩
  have hbelow : sampleBelowLong.IsSpelledBy "-9223372036854775809" := ⟨[], [], by simp, rfl⟩
  refine ⟨⟨htwo, by decide +kernel, ?_⟩, hbelow, ?_, ?_⟩
  · have hrounded : (Numeric.fractional sampleAlmostTwo.nearest).toInt? 32 = some 2 := by
      decide +kernel
    refine base_of_number (by decide) rfl (.inr (by decide))
      (sampleAlmostTwo.parse?_numeric htwo) ?_
    rw [if_neg (by decide), sampleStock, MapperKind.ofNumber?, hrounded]
    rfl
  · have hwhole : wholePart sampleBelowLong.toRat = -9223372036854775809 := by decide +kernel
    rw [hwhole]
    rintro ⟨hlow, -⟩
    exact absurd hlow (by decide)
  · have hrounded : (Numeric.fractional sampleBelowLong.nearest).toInt? 64
        = some (-9223372036854775808) := by
      decide +kernel
    refine base_of_number (by decide) rfl (.inr (by decide))
      (sampleBelowLong.parse?_numeric hbelow) ?_
    rw [if_neg (by decide), sampleSold, MapperKind.ofNumber?, hrounded]
    rfl

end Mapper

end ColumnIndex
