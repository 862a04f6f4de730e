import ColumnIndex.Proofs.DecimalLiterals
import ColumnIndex.Proofs.FloatLiterals

/-!
# Numbers as literals

Whole numbers and numbers of double precision are literals themselves. A number of single
precision is widened through its shortest digits and a decimal number becomes its text, so in both
cases the literal may be another number than the cell. `Value.NumberKept` lists when a mapper of
numbers does not notice, by the size and the digits of the number and how near it is to others;
`Mapper.Changes` is for the numbers for which it does.

Main statement: `Mapper.base_numeric_literal`.
-/
namespace ColumnIndex

open Outcome

/-- A number and its literal are the same number to a mapper of the kind. -/
inductive Value.NumberKept : MapperTag → Value → Prop
  | int (t : MapperTag) (i : Int32) : NumberKept t (.int i)
  | long (t : MapperTag) (i : Int64) : NumberKept t (.long i)
  | double (t : MapperTag) (x : Double) : NumberKept t (.double x)
  /-- What is no number or not finite has no payload. -/
  | boundlessFloat (t : MapperTag) {x : Single} (h : x.isFinite = false) : NumberKept t (.float x)
  /-- Nothing is nearer to the digits that are written for the number than the number itself. -/
  | ownFloat (t : MapperTag) {x : Single} (h : x.OwnsDigits) : NumberKept t (.float x)
  /-- Only the whole part is asked, and single precision has all whole numbers up to there. -/
  | truncatedFloat {t : MapperTag} (ht : t ∈ wholeTags) {x : Single} (h : |x.toRat| < 2 ^ 24) :
      NumberKept t (.float x)
  /-- Any number but one and its negative. -/
  | narrowedFloat {x : Single} (h : x.code ≠ 0x15ae43fd) : NumberKept .float (.float x)
  /-- The shortest digits in single and in double precision agree as far as a decimal number has
  them. -/
  | decimalFloat {x : Single} (h : x.decimalRat = (x.convert : Double).decimalRat) :
      NumberKept .bigDecimal (.float x)
  | bigDecimal (d : Decimal) : NumberKept .bigDecimal (.decimal d)
  | wholeDecimal (t : MapperTag) {d : Decimal} (h : d.scale = 0) : NumberKept t (.decimal d)
  /-- All digits behind the point are zeros. -/
  | zeroFraction {t : MapperTag} (ht : t ∈ [MapperTag.float, .double]) {d : Decimal}
      (h : d.coefficient % 10 ^ d.scale = 0) : NumberKept t (.decimal d)
  /-- Few digits, and no more of them behind the point than a power of ten is exact for. -/
  | shortDecimal {t : MapperTag} (ht : t ∈ [MapperTag.float, .double]) {d : Decimal}
      (hcoefficient : d.coefficient < 2 ^ 51) (hscale : d.scale ≤ 22) : NumberKept t (.decimal d)
  /-- A number that is not next to the middle between two numbers of single precision. -/
  | narrowedDecimal {d : Decimal}
      (h : ∀ c, |d.toRat| < 2 ^ 48 * |(|d.toRat| - FloatFormat.single.midpoint c)|) :
      NumberKept .float (.decimal d)
  /-- Only the whole part is asked, and the next whole number is farther away than half a unit of
  the last bit. -/
  | truncatedDecimal {t : MapperTag} (ht : t ∈ wholeTags) {d : Decimal}
      (h : |d.toRat| * (2 ^ 53 + 1) < (⌊|d.toRat|⌋ + 1) * 2 ^ 53) : NumberKept t (.decimal d)

namespace Value.NumberKept

theorem isNumeric {t : MapperTag} {v : Value} (h : NumberKept t v) : v.isNumeric := by
  cases h with
  | _ => rfl

/-- A whole number of single precision is kept by every mapper as long as single precision has all
whole numbers. -/
theorem of_whole (t : MapperTag) {x : Single} (hx : x.isFinite) (hwhole : x.toRat.den = 1)
    (hlimit : |x.toRat| < 2 ^ 24) : NumberKept t (.float x) :=
  .ownFloat t (BinaryFloat.ownsDigits_of_whole hx hwhole hlimit)

/-- Few digits are kept by every mapper of numbers. -/
theorem of_short {t : MapperTag} (ht : t ∈ numberTags) {d : Decimal}
    (hcoefficient : d.coefficient < 2 ^ 51) (hscale : d.scale ≤ 22) :
    NumberKept t (.decimal d) := by
  have htag : t ∈ wholeTags ∨ t ∈ [MapperTag.float, .double] ∨ t = .bigDecimal := by
    revert t
    decide
  rcases htag with hwhole | hfraction | rfl
  · refine .truncatedDecimal hwhole ?_
    rw [Decimal.abs_toRat]
    exact apart_of_lt d.scale (by omega)
  · exact .shortDecimal hfraction hcoefficient hscale
  · exact .bigDecimal d

end Value.NumberKept

variable {k : MapperKind} {v : Value} {base : FieldValue}

/-! ## Numbers of single precision -/

/-- Exactly the numbers of single precision that are kept have the payload of what they are widened
to. -/
theorem MapperKind.ofNumber?_widen_iff (hk : k.tag ∈ numberTags) {x : Single} (hx : x.isFinite)
    (h : k.ofNumber? (.fractional x.convert) = some base) :
    k.ofNumber? (.fractional x.widen) = some base ↔ Value.NumberKept k.tag (.float x) := by
  cases k with
  | integer | long =>
    rw [ofNumber?_widen_whole (by decide) hx h]
    constructor
    · rintro (hlimit | hown)
      · exact .truncatedFloat (by decide) hlimit
      · exact .ownFloat _ hown
    · intro hkept
      cases hkept with
      | boundlessFloat _ hinf => exact absurd hx (Bool.eq_false_iff.1 hinf)
      | ownFloat _ hown => exact .inr hown
      | truncatedFloat _ hlimit => exact .inl hlimit
  | float =>
    rw [ofNumber?_widen_float hx h]
    constructor
    · intro hcode
      exact .narrowedFloat hcode
    · intro hkept
      cases hkept with
      | boundlessFloat _ hinf => exact absurd hx (Bool.eq_false_iff.1 hinf)
      | ownFloat _ hown => exact hown.code_ne hx
      | truncatedFloat ht => simp [wholeTags, tag] at ht
      | narrowedFloat hcode => exact hcode
  | double =>
    rw [ofNumber?_widen_double hx h]
    constructor
    · intro hown
      exact .ownFloat _ hown
    · intro hkept
      cases hkept with
      | boundlessFloat _ hinf => exact absurd hx (Bool.eq_false_iff.1 hinf)
      | ownFloat _ hown => exact hown
      | truncatedFloat ht => simp [wholeTags, tag] at ht
  | bigDecimal whole fraction =>
    rw [ofNumber?_widen_bigDecimal hx h]
    constructor
    · intro hdigits
      exact .decimalFloat hdigits
    · intro hkept
      cases hkept with
      | boundlessFloat _ hinf => exact absurd hx (Bool.eq_false_iff.1 hinf)
      | ownFloat _ hown => exact hown.decimalRat_eq hx
      | truncatedFloat ht => simp [wholeTags, tag] at ht
      | decimalFloat hdigits => exact hdigits
  | _ => simp [numberTags, tag] at hk

/-! ## Decimal numbers -/

section Decimal

variable {d : Decimal}

/-- What a mapper of whole numbers asks of a decimal number. -/
theorem Value.NumberKept.truncate? {t : MapperTag} (hkept : NumberKept t (.decimal d))
    (ht : t ∈ wholeTags) : d.scale = 0 ∨ d.nearest.truncate? = some d.truncate := by
  cases hkept with
  | bigDecimal | narrowedDecimal => simp [wholeTags] at ht
  | wholeDecimal _ hs => exact .inl hs
  | zeroFraction hfraction | shortDecimal hfraction =>
    rcases List.mem_pair.1 hfraction with rfl | rfl
    · simp [wholeTags] at ht
    · simp [wholeTags] at ht
  | truncatedDecimal _ h => exact .inr (Decimal.truncate?_nearest h)

/-- What a mapper of numbers of double precision asks of a decimal number. -/
theorem Value.NumberKept.toDouble (hkept : NumberKept .double (.decimal d)) :
    d.scale = 0 ∨ d.toDouble = d.nearest := by
  cases hkept with
  | wholeDecimal _ hs => exact .inl hs
  | zeroFraction _ hmod => exact Decimal.toDouble_eq_nearest_or (.inl hmod)
  | shortDecimal _ hcoefficient hscale =>
    exact Decimal.toDouble_eq_nearest_or (.inr ⟨hcoefficient, hscale⟩)
  | truncatedDecimal ht => simp [wholeTags] at ht

/-- What a mapper of numbers of single precision asks of a decimal number. -/
theorem Value.NumberKept.toSingle (hkept : NumberKept .float (.decimal d)) :
    d.scale = 0 ∨ (d.toDouble.convert : Single) = d.nearest.convert := by
  have hnearest : d.scale = 0 ∨ d.toDouble = d.nearest →
      d.scale = 0 ∨ (d.toDouble.convert : Single) = d.nearest.convert := by
    intro h
    exact h.imp_right fun hsame => by rw [hsame]
  cases hkept with
  | wholeDecimal _ hs => exact .inl hs
  | zeroFraction _ hmod => exact hnearest (Decimal.toDouble_eq_nearest_or (.inl hmod))
  | shortDecimal _ hcoefficient hscale =>
    exact hnearest (Decimal.toDouble_eq_nearest_or (.inr ⟨hcoefficient, hscale⟩))
  | narrowedDecimal h => exact Decimal.convert_toDouble_eq_or h
  | truncatedDecimal ht => simp [wholeTags] at ht

/-- A decimal number that is kept has the payload of its text. -/
theorem MapperKind.payload?_text (hk : k.tag ∈ numberTags)
    (hkept : Value.NumberKept k.tag (.decimal d)) (h : k.ofNumber? (.exact d) = some base) :
    k.payload? (.text d.text) = some base := by
  have hread := Numeric.parse?_text d
  cases k with
  | integer =>
    obtain ⟨i, hi, rfl⟩ := Option.map_eq_some_iff.1 h
    have hint := Numeric.toInt?_text (hkept.truncate? (by decide)) (by decide) hi hread
    rw [payload?, Numeric.ofValue?, hread, Option.bind_some, hint, Option.map_some]
  | long =>
    obtain ⟨i, hi, rfl⟩ := Option.map_eq_some_iff.1 h
    have hint := Numeric.toInt?_text (hkept.truncate? (by decide)) (by decide) hi hread
    rw [payload?, Numeric.ofValue?, hread, Option.bind_some, hint, Option.map_some]
  | float =>
    obtain ⟨y, hy, rfl⟩ := Option.map_eq_some_iff.1 h
    have hsingle := Numeric.toSingle?_text hkept.toSingle hread hy
    rw [payload?, Numeric.ofValue?, hread, Option.bind_some, hsingle, Option.map_some]
  | double =>
    have hdouble := Numeric.toDouble?_text hkept.toDouble hread
    rw [payload?, Numeric.ofValue?, hread, Option.bind_some, hdouble]
    exact h
  | bigDecimal whole fraction =>
    have htext : (Value.text d.text).toDecimal?
        = some { d with negative := d.negative && d.coefficient != 0 } := Decimal.parse?_text d
    have hsame : Decimal.toRat { d with negative := d.negative && d.coefficient != 0 }
        = d.toRat := by
      rw [Decimal.toRat_eq_signed, Decimal.toRat_eq_signed]
      exact signed_and_ne_zero d.negative d.coefficient _
    rw [payload?, htext, Option.bind_some, Decimal.sortable_congr hsame]
    exact h
  | _ => simp [numberTags, tag] at hk

end Decimal

/-! ## Mappers of numbers -/

/-- A number that is kept has the payload of its literal. -/
theorem MapperKind.payload?_numeric_literal (hk : k.tag ∈ numberTags)
    (hkept : Value.NumberKept k.tag v) (h : k.payload? v = some base) :
    k.payload? v.literal = some base := by
  have hfractional : ∀ x : Double, k.payload? (.double x) = k.ofNumber? (.fractional x) :=
    fun x => payload?_eq_ofNumber? hk (.inl rfl)
  cases v with
  | int i =>
    rw [payload?_eq_ofNumber? hk (.inl rfl)] at h ⊢
    have hsame : Numeric.ofValue? (Value.int i).literal = Numeric.ofValue? (.int i) := by
      simp [Value.literal, Numeric.ofValue?]
    rw [hsame, h]
  | long i => exact h
  | float x =>
    rw [payload?_eq_ofNumber? hk (.inl rfl), Numeric.ofValue?, Option.bind_some] at h
    cases hx : x.isFinite with
    | true => rw [Value.literal_float hx, hfractional, (ofNumber?_widen_iff hk hx h).2 hkept]
    | false =>
      have hconvert : (x.convert : Double).isFinite = false := by
        rw [Bool.eq_false_iff] at hx ⊢
        exact fun h => hx (BinaryFloat.isFinite_of_convert h)
      rw [ofNumber?_of_not_isFinite hconvert] at h
      cases h
  | double x =>
    cases hx : x.isFinite with
    | true => rwa [Value.literal, Value.doubleLiteral, if_pos hx]
    | false =>
      rw [hfractional, ofNumber?_of_not_isFinite hx] at h
      cases h
  | decimal d =>
    rw [payload?_eq_ofNumber? hk (.inl rfl)] at h
    exact payload?_text hk hkept h
  | _ => exact absurd hkept.isNumeric Bool.false_ne_true

/-- A number that is not a decimal one has the payload of its literal only if it is kept. -/
theorem MapperKind.numberKept_of_payload?_literal (hk : k.tag ∈ numberTags) (hv : v.isNumeric)
    (hdecimal : ∀ d, v ≠ .decimal d) (h : k.payload? v = some base)
    (h' : k.payload? v.literal = some base) : Value.NumberKept k.tag v := by
  cases v with
  | int i => exact .int _ i
  | long i => exact .long _ i
  | double x => exact .double _ x
  | float x =>
    cases hx : x.isFinite with
    | true =>
      rw [payload?_eq_ofNumber? hk (.inl rfl), Numeric.ofValue?, Option.bind_some] at h
      rw [Value.literal_float hx, payload?_eq_ofNumber? hk (.inl rfl), Numeric.ofValue?,
        Option.bind_some] at h'
      exact (ofNumber?_widen_iff hk hx h).1 h'
    | false => exact .boundlessFloat _ hx
  | decimal d => exact absurd rfl (hdecimal d)
  | _ => exact absurd hv Bool.false_ne_true

namespace Mapper

variable {m : Mapper} {column : String}

/-- The payload of a single value under a mapper that has none of points. -/
theorem base_eq_ok_some (hm : m.tag.isSpatial = false) {base : FieldValue} :
    (m.base column v).result = .ok (some base) ↔ v.isScalar ∧ m.kind.payload? v = some base := by
  rw [base_eq_ok, coerce_eq_some hm, MapperKind.coerce_eq_ok]

theorem isSpatial_of_numberTags (hm : m.tag ∈ numberTags) : m.tag.isSpatial = false := by
  have every : ∀ t ∈ numberTags, t.isSpatial = false := by decide
  exact every m.tag hm

/-- A mapper of numbers gives the literal of a number that is kept the payload of the number, and of
the numbers other than decimal ones it gives no other literal that payload. -/
theorem base_numeric_literal (hm : m.tag ∈ numberTags) (hv : v.isNumeric)
    {payload : Option FieldValue} (h : (m.base column v).result = .ok payload) :
    (v.NumberKept m.tag → (m.base column v.literal).result = .ok payload) ∧
      ((∀ d, v ≠ .decimal d) → (m.base column v.literal).result = .ok payload →
        v.NumberKept m.tag) := by
  have hspatial := isSpatial_of_numberTags hm
  cases payload with
  | none =>
    rw [base_eq_ok, coerce_eq_none] at h
    subst h
    exact absurd hv Bool.false_ne_true
  | some base =>
    rw [base_eq_ok_some hspatial] at h ⊢
    refine ⟨fun hkept => ⟨by rw [Value.isScalar_literal, h.1], ?_⟩, fun hdecimal h' => ?_⟩
    · exact MapperKind.payload?_numeric_literal hm hkept h.2
    · exact MapperKind.numberKept_of_payload?_literal hm hv hdecimal h.2 h'.2

/-- A mapper of numbers of double precision. -/
def samplePrice : Mapper := ⟨"price", "price", true, false, defaultBoost, .double⟩

/-- A price with two fraction digits. -/
def sampleDecimal : Decimal := ⟨false, 1999, 2, by decide, by decide⟩

/-- The payload of a value that is read as a number. -/
theorem base_of_number (hm : m.tag ∈ numberTags) (hv : v.isScalar)
    (htext : v.asText? = none ∨ m.tag ≠ .bigDecimal) {n : Numeric}
    (hn : Numeric.ofValue? v = some n) (h : m.kind.ofNumber? n = some base) :
    (m.base column v).result = .ok (some base) := by
  rw [base_eq_ok_some (isSpatial_of_numberTags hm), MapperKind.payload?_eq_ofNumber? hm htext, hn]
  exact ⟨hv, h⟩

/-- The price and its text are the same number in double precision. -/
theorem base_numeric_literal_price :
    (samplePrice.base "price" (.decimal sampleDecimal)).result
        = .ok (some (.double (.ofBits 0x4033fd70a3d70a3d))) ∧
      (samplePrice.base "price" (Value.decimal sampleDecimal).literal).result
        = .ok (some (.double (.ofBits 0x4033fd70a3d70a3d))) := by
  have hvalue : sampleDecimal.toDouble = .ofBits 0x4033fd70a3d70a3d :=
    BinaryFloat.ext (by decide +kernel) (by decide +kernel)
  have hdouble : MapperKind.double.ofNumber? (.exact sampleDecimal)
      = some (.double (.ofBits 0x4033fd70a3d70a3d)) := by
    rw [MapperKind.ofNumber?, Numeric.toDouble?_exact.2 ⟨hvalue, rfl⟩, Option.map_some]
  have h : (samplePrice.base "price" (.decimal sampleDecimal)).result
      = .ok (some (.double (.ofBits 0x4033fd70a3d70a3d))) :=
    base_of_number (by decide) rfl (.inl rfl) rfl hdouble
  exact ⟨h, (base_numeric_literal (by decide) rfl h).1
    (.of_short (by decide) (by decide) (by decide))⟩

/-! ## Numbers that are not kept -/

/-- A value is accepted, and its literal is accepted as something else. -/
def Changes (m : Mapper) (column : String) (v : Value) (base other : FieldValue) : Prop :=
  (m.base column v).result = .ok (some base) ∧
    (m.base column v.literal).result = .ok (some other) ∧ base ≠ other

/-- A fraction of single precision is another number than the one with the same digits. -/
theorem changes_float (hm : m.tag ∈ numberTags) {x : Single} (hx : x.isFinite) {other : FieldValue}
    (h : m.kind.ofNumber? (.fractional x.convert) = some base)
    (h' : m.kind.ofNumber? (.fractional x.widen) = some other) (hne : base ≠ other) :
    m.Changes column (.float x) base other := by
  refine ⟨base_of_number hm rfl (.inl rfl) rfl h, ?_, hne⟩
  rw [Value.literal_float hx]
  exact base_of_number hm rfl (.inl rfl) rfl h'

/-- A decimal number is converted to another number than its text is read as. -/
theorem changes_decimal (hm : m.tag ∈ numberTags) (hbig : m.tag ≠ .bigDecimal) {d : Decimal}
    (hd : d.scale ≠ 0) {other : FieldValue} (h : m.kind.ofNumber? (.exact d) = some base)
    (h' : m.kind.ofNumber? (.fractional d.nearest) = some other) (hne : base ≠ other) :
    m.Changes column (.decimal d) base other := by
  have hread := Numeric.parse?_text d
  rw [if_neg (fun hrange => hd hrange.1)] at hread
  exact ⟨base_of_number hm rfl (.inl rfl) rfl h, base_of_number hm rfl (.inr hbig) hread h', hne⟩

/-- A mapper of whole numbers. -/
def sampleStock : Mapper := ⟨"stock", "stock", true, false, defaultBoost, .integer⟩

/-- A mapper of long whole numbers. -/
def sampleSold : Mapper := ⟨"sold", "sold", true, false, defaultBoost, .long⟩

/-- A mapper of numbers of single precision. -/
def sampleRatio : Mapper := ⟨"ratio", "ratio", true, false, defaultBoost, .float⟩

/-- A mapper of decimal numbers. -/
def sampleShare : Mapper := ⟨"share", "share", true, false, defaultBoost, .bigDecimal 2 16⟩

/-- A decimal number of fifty-two bits. -/
def sampleLongDecimal : Decimal := ⟨false, 2384185791016593, 22, by decide, by decide⟩

/-- One digit behind more zeros than there are in an exact power of ten. -/
def sampleTinyDecimal : Decimal := ⟨false, 1, 23, by decide, by decide⟩

/-- A decimal number between two neighbours of single precision. -/
def sampleMidpoint : Decimal := ⟨false, 36029266357421875, 13, by decide, by decide⟩

/-- Two fractions of the same digits. -/
theorem changes_price :
    samplePrice.Changes "price" (.float (.ofBits 0x3f333333))
      (.double (.ofBits 0x3fe6666660000000)) (.double (.ofBits 0x3fe6666666666666)) := by
  have hconvert : ((.ofBits 0x3f333333 : Single).convert : Double) = .ofBits 0x3fe6666660000000 :=
    BinaryFloat.ext (by decide +kernel) (by decide +kernel)
  have hwiden : (.ofBits 0x3f333333 : Single).widen = .ofBits 0x3fe6666666666666 :=
    BinaryFloat.ext (by decide +kernel) (by decide +kernel)
  refine changes_float (by decide) rfl ?_ ?_ fun h => ?_
  · rw [hconvert]
    rfl
  · rw [hwiden]
    rfl
  · exact absurd (congrArg BinaryFloat.code (FieldValue.double.inj h)) (by decide)

/-- The same two fractions as decimal numbers. -/
theorem changes_share :
    sampleShare.Changes "share" (.float (.ofBits 0x3f333333)) (.str "100.6999999880790710")
      (.str "100.7000000000000000") := by
  have hcell : (Numeric.fractional (.convert (.ofBits 0x3f333333 : Single))).toDecimal?
      = some ⟨false, 699999988079071, 15, by decide, by decide⟩ := by decide +kernel
  have hliteral : (Numeric.fractional (.widen (.ofBits 0x3f333333))).toDecimal?
      = some ⟨false, 7, 1, by decide, by decide⟩ := by decide +kernel
  refine changes_float (by decide) rfl ?_ ?_ (by simp)
  · rw [sampleShare, MapperKind.ofNumber?, hcell]
    rfl
  · rw [sampleShare, MapperKind.ofNumber?, hliteral]
    rfl

/-- A whole number with more digits than the shortest ones. -/
theorem changes_stock :
    sampleStock.Changes "stock" (.float (.ofBits 0x4effffff)) (.int 2147483520)
      (.int 2147483500) := by
  have hcell : (Numeric.fractional (.convert (.ofBits 0x4effffff : Single))).toInt? 32
      = some 2147483520 := by decide +kernel
  have hliteral : (Numeric.fractional (.widen (.ofBits 0x4effffff))).toInt? 32
      = some 2147483500 := by decide +kernel
  refine changes_float (by decide) rfl ?_ ?_ (by simp)
  · rw [sampleStock, MapperKind.ofNumber?, hcell]
    rfl
  · rw [sampleStock, MapperKind.ofNumber?, hliteral]
    rfl

/-- The same whole number with twice as many bits to fit into. -/
theorem changes_sold :
    sampleSold.Changes "sold" (.float (.ofBits 0x4effffff)) (.long 2147483520)
      (.long 2147483500) := by
  have hcell : (Numeric.fractional (.convert (.ofBits 0x4effffff : Single))).toInt? 64
      = some 2147483520 := by decide +kernel
  have hliteral : (Numeric.fractional (.widen (.ofBits 0x4effffff))).toInt? 64
      = some 2147483500 := by decide +kernel
  refine changes_float (by decide) rfl ?_ ?_ (by simp)
  · rw [sampleSold, MapperKind.ofNumber?, hcell]
    rfl
  · rw [sampleSold, MapperKind.ofNumber?, hliteral]
    rfl

/-- A number whose shortest digits are next to the midpoint above it is widened to that midpoint,
and narrowed to its neighbour. -/
theorem changes_ratio :
    sampleRatio.Changes "ratio" (.float (.ofBits 0x15ae43fd)) (.float (.ofBits 0x15ae43fd))
      (.float (.ofBits 0x15ae43fe)) := by
  have hnarrow : ((.ofBits 0x15ae43fd : Single).widen.convert : Single) = .ofBits 0x15ae43fe :=
    BinaryFloat.ext (by decide +kernel) (by decide +kernel)
  have hcell := Numeric.toSingle?_of_convert (y := .ofBits 0x15ae43fd)
    (BinaryFloat.convert_spec rfl).1 rfl (BinaryFloat.convert_convert rfl)
  have hliteral := Numeric.toSingle?_of_convert (BinaryFloat.widen_spec rfl).1 rfl hnarrow
  refine changes_float (by decide) rfl ?_ ?_ fun h => ?_
  · rw [sampleRatio, MapperKind.ofNumber?, hcell, Option.map_some]
  · rw [sampleRatio, MapperKind.ofNumber?, hliteral, Option.map_some]
  · exact absurd (congrArg BinaryFloat.code (FieldValue.float.inj h)) (by decide)

/-- A decimal number that is converted to another number than the nearest one. -/
theorem changes_decimal_price {d : Decimal} (hd : d.scale ≠ 0) {x y : Double}
    (hconvert : d.toDouble = x) (hnearest : d.nearest = y) (hx : x.isFinite) (hy : y.isFinite)
    (hne : x ≠ y) : samplePrice.Changes "price" (.decimal d) (.double x) (.double y) := by
  refine changes_decimal (by decide) (by decide) hd ?_ ?_ fun h => hne (FieldValue.double.inj h)
  · rw [samplePrice, MapperKind.ofNumber?, Numeric.toDouble?_exact.2 ⟨hconvert, hx⟩,
      Option.map_some]
  · rw [hnearest, samplePrice, MapperKind.ofNumber?, Numeric.toDouble?_fractional hy,
      Option.map_some]

/-- With one bit more than is kept, the conversion can miss the nearest number. -/
theorem changes_long_price :
    samplePrice.Changes "price" (.decimal sampleLongDecimal)
      (.double (.ofBits 0x3e90000000000726)) (.double (.ofBits 0x3e90000000000725)) := by
  refine changes_decimal_price (by decide) ?_ ?_ rfl rfl fun h => ?_
  · exact BinaryFloat.ext (by decide +kernel) (by decide +kernel)
  · exact BinaryFloat.ext (by decide +kernel) (by decide +kernel)
  · exact absurd (congrArg BinaryFloat.code h) (by decide)

/-- With one fraction digit more than are kept, it can miss the nearest number too. -/
theorem changes_tiny_price :
    samplePrice.Changes "price" (.decimal sampleTinyDecimal)
      (.double (.ofBits 0x3b282db34012b252)) (.double (.ofBits 0x3b282db34012b251)) := by
  refine changes_decimal_price (by decide) ?_ ?_ rfl rfl fun h => ?_
  · exact BinaryFloat.ext (by decide +kernel) (by decide +kernel)
  · exact BinaryFloat.ext (by decide +kernel) (by decide +kernel)
  · exact absurd (congrArg BinaryFloat.code h) (by decide)

/-- The conversion of a midpoint misses it, so that it is narrowed to the wrong side. -/
theorem changes_midpoint_ratio :
    sampleRatio.Changes "ratio" (.decimal sampleMidpoint) (.float (.ofBits 0x45612ed3))
      (.float (.ofBits 0x45612ed4)) := by
  have hconvert : sampleMidpoint.toDouble = .ofBits 0x40ac25da6fffffff :=
    BinaryFloat.ext (by decide +kernel) (by decide +kernel)
  have hnearest : sampleMidpoint.nearest = .ofBits 0x40ac25da70000000 :=
    BinaryFloat.ext (by decide +kernel) (by decide +kernel)
  have hcell : (Numeric.exact sampleMidpoint).toSingle? = some (.ofBits 0x45612ed3) := by
    refine Numeric.toSingle?_eq_some.2 ⟨_, Numeric.toDouble?_exact.2 ⟨hconvert, rfl⟩, ?_, rfl⟩
    exact BinaryFloat.ext (by decide +kernel) (by decide +kernel)
  have hliteral : (Numeric.fractional sampleMidpoint.nearest).toSingle?
      = some (.ofBits 0x45612ed4) := by
    refine Numeric.toSingle?_of_convert (hnearest ▸ rfl) rfl ?_
    rw [hnearest]
    exact BinaryFloat.ext (by decide +kernel) (by decide +kernel)
  refine changes_decimal (by decide) (by decide) (by decide) ?_ ?_ fun h => ?_
  · rw [sampleRatio, MapperKind.ofNumber?, hcell, Option.map_some]
  · rw [sampleRatio, MapperKind.ofNumber?, hliteral, Option.map_some]
  · exact absurd (congrArg BinaryFloat.code (FieldValue.float.inj h)) (by decide)

/-- Not every literal of a number has the payload of the number, whatever kind of number the mapper
is for. -/
theorem base_numeric_literal_differs :
    samplePrice.Changes "price" (.float (.ofBits 0x3f333333))
        (.double (.ofBits 0x3fe6666660000000)) (.double (.ofBits 0x3fe6666666666666)) ∧
      sampleShare.Changes "share" (.float (.ofBits 0x3f333333)) (.str "100.6999999880790710")
        (.str "100.7000000000000000") ∧
      sampleStock.Changes "stock" (.float (.ofBits 0x4effffff)) (.int 2147483520)
        (.int 2147483500) ∧
      sampleSold.Changes "sold" (.float (.ofBits 0x4effffff)) (.long 2147483520)
        (.long 2147483500) ∧
      sampleRatio.Changes "ratio" (.float (.ofBits 0x15ae43fd)) (.float (.ofBits 0x15ae43fd))
        (.float (.ofBits 0x15ae43fe)) ∧
      samplePrice.Changes "price" (.decimal sampleLongDecimal)
        (.double (.ofBits 0x3e90000000000726)) (.double (.ofBits 0x3e90000000000725)) ∧
      samplePrice.Changes "price" (.decimal sampleTinyDecimal)
        (.double (.ofBits 0x3b282db34012b252)) (.double (.ofBits 0x3b282db34012b251)) ∧
      sampleRatio.Changes "ratio" (.decimal sampleMidpoint) (.float (.ofBits 0x45612ed3))
        (.float (.ofBits 0x45612ed4)) :=
  ⟨changes_price, changes_share, changes_stock, changes_sold, changes_ratio, changes_long_price,
    changes_tiny_price, changes_midpoint_ratio⟩

end Mapper

end ColumnIndex
