import ColumnIndex.Proofs.LiteralPayloads
import ColumnIndex.Proofs.Number.FloatDecimals
import ColumnIndex.Proofs.Number.KeptWidening
import ColumnIndex.Proofs.Number.SortableTexts
import ColumnIndex.Proofs.NumberPayloads

/-!
# Numbers of single precision as literals

The literal of a number of single precision is the number of double precision nearest to its
shortest digits, while the number itself is read without any change. So the two have the same
payload if widening keeps what the mapper asks for: the whole part, the number of single precision,
the number of double precision, or the decimal number.

Main statements: `MapperKind.ofNumber?_widen_whole`, `MapperKind.ofNumber?_widen_float`,
`MapperKind.ofNumber?_widen_double`, `MapperKind.ofNumber?_widen_bigDecimal`.
-/
namespace ColumnIndex

variable {x : Single}

theorem Value.literal_float (hx : x.isFinite) : (Value.float x).literal = .double x.widen := by
  rw [literal, doubleLiteral, if_pos (BinaryFloat.widen_spec hx).1]

namespace BinaryFloat

/-- What a number is widened to has the same decimal digits. -/
theorem decimalRat_widen (hx : x.isFinite) : x.widen.decimalRat = x.decimalRat := by
  rw [decimalRat, decimalRat, writtenRat_widen hx]

theorem OwnsDigits.widen_eq (hx : x.isFinite) (hown : x.OwnsDigits) : x.widen = x.convert :=
  widen_eq_convert hx ((ownsDigits_iff hx).1 hown)

/-- A number that owns its digits is narrowed again. -/
theorem OwnsDigits.code_ne (hx : x.isFinite) (hown : x.OwnsDigits) : x.code ≠ 0x15ae43fd := by
  rw [← convert_widen_iff hx, hown.widen_eq hx]
  exact convert_convert hx

theorem OwnsDigits.decimalRat_eq (hx : x.isFinite) (hown : x.OwnsDigits) :
    x.decimalRat = (x.convert : Double).decimalRat := by
  rw [← decimalRat_widen hx, hown.widen_eq hx]

theorem truncate?_convert (hx : x.isFinite) : (x.convert : Double).truncate? = x.truncate? := by
  obtain ⟨hfinite, -, hvalue⟩ := convert_spec hx
  rw [truncate?, truncate?, toRat?, toRat?, if_pos hfinite, if_pos hx, hvalue]

end BinaryFloat

namespace MapperKind

variable {k : MapperKind} {base : FieldValue}

/-- A mapper of whole numbers asks for the whole part. -/
theorem ofNumber?_widen_whole (hk : k.tag ∈ wholeTags) (hx : x.isFinite)
    (h : k.ofNumber? (.fractional x.convert) = some base) :
    k.ofNumber? (.fractional x.widen) = some base ↔ |x.toRat| < 2 ^ 24 ∨ x.OwnsDigits := by
  have hconvert : (Numeric.fractional x.convert).truncate? = x.truncate? :=
    BinaryFloat.truncate?_convert hx
  rw [← BinaryFloat.truncate?_widen_iff hx, ← hconvert]
  constructor
  · intro h'
    exact truncate?_of_ofNumber? hk h' h
  · intro hsame
    rw [← h]
    exact ofNumber?_of_truncate? hk hsame

/-- A mapper of numbers of single precision narrows both numbers. -/
theorem ofNumber?_widen_float (hx : x.isFinite)
    (h : float.ofNumber? (.fractional x.convert) = some base) :
    float.ofNumber? (.fractional x.widen) = some base ↔ x.code ≠ 0x15ae43fd := by
  obtain ⟨hwiden, -, -⟩ := BinaryFloat.widen_spec hx
  have hcell := Numeric.toSingle?_of_convert (BinaryFloat.convert_spec hx).1 hx
    (BinaryFloat.convert_convert hx)
  rw [ofNumber?, hcell, Option.map_some] at h
  obtain rfl := Option.some.inj h
  rw [← BinaryFloat.convert_widen_iff hx, ofNumber?, Option.map_eq_some_iff]
  constructor
  · rintro ⟨y, hy, hsame⟩
    obtain ⟨z, hz, hnarrow, -⟩ := Numeric.toSingle?_eq_some.1 hy
    rw [Numeric.toDouble?_fractional hwiden] at hz
    obtain rfl := Option.some.inj hz
    rw [hnarrow, FieldValue.float.inj hsame]
  · intro hnarrow
    exact ⟨x, Numeric.toSingle?_of_convert hwiden hx hnarrow, rfl⟩

/-- A mapper of numbers of double precision keeps both numbers as they are. -/
theorem ofNumber?_widen_double (hx : x.isFinite)
    (h : double.ofNumber? (.fractional x.convert) = some base) :
    double.ofNumber? (.fractional x.widen) = some base ↔ x.OwnsDigits := by
  obtain ⟨hconvert, -, hvalue⟩ := BinaryFloat.convert_spec hx
  obtain ⟨hwiden, -, -⟩ := BinaryFloat.widen_spec hx
  rw [ofNumber?, Numeric.toDouble?_fractional hconvert, Option.map_some] at h
  obtain rfl := Option.some.inj h
  rw [ofNumber?, Numeric.toDouble?_fractional hwiden, Option.map_some, Option.some.injEq,
    FieldValue.double.injEq]
  constructor
  · intro hsame
    rw [BinaryFloat.ownsDigits_iff hx, hsame, hvalue]
  · intro hown
    exact hown.widen_eq hx

/-- A mapper of decimal numbers asks for the digits of both numbers. -/
theorem ofNumber?_widen_bigDecimal {whole fraction : UInt32} (hx : x.isFinite)
    (h : (bigDecimal whole fraction).ofNumber? (.fractional x.convert) = some base) :
    (bigDecimal whole fraction).ofNumber? (.fractional x.widen) = some base ↔
      x.decimalRat = (x.convert : Double).decimalRat := by
  obtain ⟨hconvert, hsign, -⟩ := BinaryFloat.convert_spec hx
  obtain ⟨hwiden, hsign', -⟩ := BinaryFloat.widen_spec hx
  obtain ⟨d, s, hd, hs, rfl⟩ := sortableText_eq_some.1 h
  have hvalue := BinaryFloat.toRat_toDecimal? hconvert hd
  rw [ofNumber?, sortableText_eq_some, ← BinaryFloat.decimalRat_widen hx]
  constructor
  · rintro ⟨d', s', hd', hs', hsame⟩
    obtain rfl := FieldValue.str.inj hsame
    have hvalue' := BinaryFloat.toRat_toDecimal? hwiden hd'
    have hsorted := (Decimal.sorted?_of_sortable hs').symm.trans (Decimal.sorted?_of_sortable hs)
    rwa [hvalue, hvalue', hsign, hsign', Option.some.injEq, signed_inj] at hsorted
  · intro hsame
    have hlimit := (BinaryFloat.exists_toDecimal?_iff hconvert).1 ⟨d, hd⟩
    rw [← hsame] at hlimit
    obtain ⟨d', hd'⟩ := (BinaryFloat.exists_toDecimal?_iff hwiden).2 hlimit
    have hvalue' := BinaryFloat.toRat_toDecimal? hwiden hd'
    refine ⟨d', s, hd', ?_, rfl⟩
    rw [← hs]
    apply Decimal.sortable_congr
    rw [hvalue, hvalue', hsign, hsign', hsame]

end MapperKind

end ColumnIndex
