import ColumnIndex.Geo.Geohash
import ColumnIndex.Mapper.Draft
import ColumnIndex.Proofs.Number.ExactArithmetic
import ColumnIndex.Proofs.Number.Order

/-!
# Options of drafts

Drafts of mappers, schemas and conditions are checked for the same few things: names are not
blank, boosts are positive numbers, and coordinates lie on the globe. Here each check is put in
terms of characters and of rational numbers.

## Main definitions

* `Text.HasContent` — the texts that are not blank.
* `BinaryFloat.IsPositive` — the positive numbers.
* `Geo.IsWithin` — the numbers up to a limit on both sides of zero.

Main statements: `Text.isBlankText_eq_false_iff`, `Mapper.isBoost_iff`, `Geo.isLatitude_iff`,
`Geo.isLongitude_iff`.
-/
namespace ColumnIndex

/-! ## Names -/

/-- Some character of the text is not blank. -/
def Text.HasContent (text : String) : Prop := ∃ c ∈ text.toList, Text.isBlank c = false

theorem Text.isBlankText_eq_false_iff {text : String} :
    Text.isBlankText text = false ↔ Text.HasContent text := by
  simp [Text.isBlankText, Text.HasContent]

/-! ## Boosts -/

/-- The number is finite and above zero. -/
def BinaryFloat.IsPositive {F : FloatFormat} (x : BinaryFloat F) : Prop := x.isFinite ∧ 0 < x.toRat

theorem Mapper.isBoost_iff {x : Single} : Mapper.isBoost x ↔ x.IsPositive := by
  rw [Mapper.isBoost, Bool.and_eq_true]
  exact and_congr_right BinaryFloat.zero_lt_iff

/-- A boost that is not set is a positive number. -/
theorem Mapper.isBoost_getD_iff {boost : Option Single} :
    Mapper.isBoost (boost.getD defaultBoost) ↔ ∀ x ∈ boost, x.IsPositive := by
  have hdefault : Mapper.isBoost defaultBoost := by decide
  cases boost with
  | none => simp [hdefault]
  | some x => simp [Mapper.isBoost_iff]

theorem isPositive_getD {boost : Option Single} (h : ∀ x ∈ boost, x.IsPositive) :
    (boost.getD defaultBoost).IsPositive :=
  Mapper.isBoost_iff.1 (Mapper.isBoost_getD_iff.2 h)

/-! ## Coordinates -/

namespace Geo

/-- The number is finite, and at most so far from zero. -/
def IsWithin (limit : Rat) (x : Double) : Prop :=
  x.isFinite ∧ -limit ≤ x.toRat ∧ x.toRat ≤ limit

theorem IsWithin.mono {limit limit' : Rat} {x : Double} (h : IsWithin limit x)
    (hlimit : limit ≤ limit') : IsWithin limit' x :=
  ⟨h.1, (neg_le_neg hlimit).trans h.2.1, h.2.2.trans hlimit⟩

/-- The interval between a whole number and its negative. -/
theorem has_iff {n : Nat} (hn : n ≤ 2 ^ 53) {x : Double} :
    (⟨.ofInt (-n), .ofInt n⟩ : Interval).has x ↔ IsWithin n x := by
  obtain ⟨hlow, hlowest⟩ := BinaryFloat.toRat?_eq_some.1
    (BinaryFloat.toRat?_ofInt (i := -n) (by omega))
  obtain ⟨hhigh, hhighest⟩ := BinaryFloat.toRat?_eq_some.1
    (BinaryFloat.toRat?_ofInt (i := n) (by omega))
  rw [Int.cast_neg, Int.cast_natCast] at hlowest
  rw [Int.cast_natCast] at hhighest
  rw [Interval.has, BinaryFloat.between_iff hlow hhigh, hlowest, hhighest]
  rfl

theorem isLatitude_iff {x : Double} : isLatitude x ↔ IsWithin 90 x :=
  has_iff (n := 90) (by decide)

theorem isLongitude_iff {x : Double} : isLongitude x ↔ IsWithin 180 x :=
  has_iff (n := 180) (by decide)

end Geo

end ColumnIndex
