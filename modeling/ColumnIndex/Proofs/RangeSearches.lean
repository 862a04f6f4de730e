import ColumnIndex.Proofs.ConditionMeaning
import ColumnIndex.Proofs.Number.ExactArithmetic
import ColumnIndex.Proofs.RoundedBounds

/-!
# Searches for a range of whole numbers

The bounds of a range become payloads of its field, so in a field of whole numbers a bound with a
fraction moves to the next whole number on the side of zero. A bound that belongs to the range
loses no row by that. A bound that does not belong to it loses the rows of the number that it
moves to, if that lies in the range: a lower bound below zero moves up to it, and an upper bound
above zero moves down to it.

## Main definitions

* `Within` — a value lies between two bounds.
* `Value.DenotesWhole`, `Value.DenotesBeside` — the exact number of a bound.

Main statement: `Condition.compile_range_within_iff`.
-/
namespace ColumnIndex

open Outcome

/-! ## Ranges -/

/-- Between two bounds, each of which is there or not, and belongs to the range or not. -/
structure Within {α : Type} [LE α] [LT α] (lower upper : Option α)
    (includeLower includeUpper : Bool) (a : α) : Prop where
  lower : ∀ b ∈ lower, if includeLower then b ≤ a else b < a
  upper : ∀ b ∈ upper, if includeUpper then a ≤ b else a < b

theorem le_of_included {α : Type} [Preorder α] {included : Bool} {a b : α}
    (h : if included then a ≤ b else a < b) : a ≤ b := by
  split at h
  · exact h
  · exact h.le

namespace FieldValue

/-- Payloads of whole numbers are compared as numbers if they have the same width. -/
inductive Compares (r : Int → Int → Prop) : FieldValue → FieldValue → Prop
  | int {i j : Int32} (h : r i.toInt j.toInt) : Compares r (int i) (int j)
  | long {i j : Int64} (h : r i.toInt j.toInt) : Compares r (long i) (long j)

instance : LE FieldValue := ⟨Compares (· ≤ ·)⟩

instance : LT FieldValue := ⟨Compares (· < ·)⟩

end FieldValue

namespace IsWholePayload

variable {t : MapperTag} {k n : Int} {b base : FieldValue}

theorem compares_iff {r : Int → Int → Prop} (hb : IsWholePayload t k b)
    (hbase : IsWholePayload t n base) : b.Compares r base ↔ r k n := by
  cases hb with
  | int i =>
    cases hbase with
    | int j => exact ⟨fun | .int h => h, .int⟩
  | long i =>
    cases hbase with
    | long j => exact ⟨fun | .long h => h, .long⟩

theorem le_iff (hb : IsWholePayload t k b) (hbase : IsWholePayload t n base) :
    b ≤ base ↔ k ≤ n := hb.compares_iff hbase

theorem lt_iff (hb : IsWholePayload t k b) (hbase : IsWholePayload t n base) :
    b < base ↔ k < n := hb.compares_iff hbase

theorem eq_iff (hb : IsWholePayload t k b) (hbase : IsWholePayload t n base) :
    b = base ↔ k = n := by
  cases hb with
  | int i =>
    cases hbase with
    | int j => rw [FieldValue.int.injEq, Int32.toInt_inj]
  | long i =>
    cases hbase with
    | long j => rw [FieldValue.long.injEq, Int64.toInt_inj]

/-- Double precision has every whole number of thirty-two bits. -/
theorem exists_double (h : IsWholePayload .integer n base) :
    ∃ y : Double, y.isFinite ∧ y.toRat = n := by
  cases h with
  | int i =>
    have hlow := i.le_toInt
    have hhigh := i.toInt_lt
    exact ⟨_, BinaryFloat.toRat?_eq_some.1 (BinaryFloat.toRat?_ofInt (by omega))⟩

/-- Below a number or at it, a bound lets the number through if it belongs to the range or is not
the number itself. -/
theorem lower_iff (hb : IsWholePayload t k b) (hbase : IsWholePayload t n base) (hle : k ≤ n)
    (includeLower : Bool) :
    (if includeLower then b ≤ base else b < base) ↔ (includeLower = false → b ≠ base) := by
  rw [hb.le_iff hbase, hb.lt_iff hbase, ne_eq, hb.eq_iff hbase]
  cases includeLower with
  | false => simpa using hle.lt_iff_ne
  | true => simpa using hle

theorem upper_iff (hb : IsWholePayload t k b) (hbase : IsWholePayload t n base) (hle : n ≤ k)
    (includeUpper : Bool) :
    (if includeUpper then base ≤ b else base < b) ↔ (includeUpper = false → b ≠ base) := by
  rw [hbase.le_iff hb, hbase.lt_iff hb, ne_eq, hb.eq_iff hbase]
  cases includeUpper with
  | false => simpa using hle.lt_iff_ne'
  | true => simpa using hle

end IsWholePayload

/-! ## Bounds -/

theorem wholePart_intCast (n : Int) : wholePart n = n := by simp [wholePart]

theorem wholePart_le {q : Rat} {n : Int} (h : q ≤ n) : wholePart q ≤ n := by
  simpa [wholePart_intCast] using wholePart_mono h

theorem le_wholePart {q : Rat} {n : Int} (h : n ≤ q) : n ≤ wholePart q := by
  simpa [wholePart_intCast] using wholePart_mono h

/-- Only from below zero a number moves up to its whole part. -/
theorem wholePart_eq_iff_of_lt {q : Rat} {n : Int} (h : q < n) :
    wholePart q = n ↔ q < 0 ∧ n = ⌈q⌉ := by
  unfold wholePart
  split
  · rename_i hq
    have hne : ⌊q⌋ ≠ n := by
      rintro rfl
      exact absurd (Int.floor_le q) (not_le.2 h)
    simp [hne, hq]
  · rename_i hq
    simp [not_le.1 hq, eq_comm]

/-- Only from above zero a number moves down to its whole part. -/
theorem wholePart_eq_iff_of_gt {q : Rat} {n : Int} (h : n < q) :
    wholePart q = n ↔ 0 < q ∧ n = ⌊q⌋ := by
  have hneg : -q < (-n : Int) := by
    push_cast
    linarith
  have hiff := wholePart_eq_iff_of_lt hneg
  rwa [wholePart_neg, neg_inj, neg_lt_zero, Int.ceil_neg, neg_inj] at hiff

/-- The cell is the whole number. -/
inductive Value.IsWhole : Value → Int → Prop
  | int (i : Int32) : IsWhole (.int i) i.toInt
  | long (i : Int64) : IsWhole (.long i) i.toInt

/-- The literal denotes the number, and a mapper of the kind reads it with the whole part of that
number. -/
inductive Value.DenotesWhole (t : MapperTag) : Value → Rat → Prop
  | long (i : Int64) : DenotesWhole t (.long i) i.toInt
  | double {x : Double} (hx : x.isFinite) : DenotesWhole t (.double x) x.toRat
  | text {s : String} {p : PlainDecimal} (hs : p.IsSpelledBy s) (hp : p.KeepsWhole t) :
    DenotesWhole t (.text s) p.toRat

/-- The literal denotes the number. If it is a text that is read with another whole part, rounding
does not carry it past the cell, which is short or a number of double precision. -/
inductive Value.DenotesBeside (t : MapperTag) (n : Int) : Value → Rat → Prop
  | whole {v : Value} {q : Rat} (h : v.DenotesWhole t q) : DenotesBeside t n v q
  | rounded {s : String} {p : PlainDecimal} (hs : p.IsSpelledBy s)
    (hn : t = .integer ∨ ∃ y : Double, y.isFinite ∧ y.toRat = n) :
    DenotesBeside t n (.text s) p.toRat

namespace Mapper

variable {m : Mapper} {column : String} {v : Value} {base : FieldValue} {q : Rat} {n : Int}

/-- A payload is that of the whole part of what was read. -/
theorem exists_whole_of_read (hm : m.tag ∈ wholeTags) {q? : Option Rat} (hv : v.isScalar)
    (hread : (Numeric.ofValue? v).bind Numeric.toRat? = q?)
    (hbase : (m.base column v).result = .ok (some base)) :
    ∃ r, q? = some r ∧ wholePart r ∈ m.tag.wholeRange ∧ IsWholePayload m.tag (wholePart r) base :=
  (truncates_of_read hm hv hread).exists_of_base hbase

theorem isWholePayload_of_isWhole (hm : m.tag ∈ wholeTags) (hv : v.IsWhole n)
    (hbase : (m.base column v).result = .ok (some base)) : IsWholePayload m.tag n base := by
  have hread : (Numeric.ofValue? v).bind Numeric.toRat? = some (n : Rat) := by
    cases hv with
    | int i => rfl
    | long i => rfl
  have hscalar : v.isScalar := by
    cases hv with
    | int i => rfl
    | long i => rfl
  obtain ⟨r, hr, -, hwhole⟩ := exists_whole_of_read hm hscalar hread hbase
  obtain rfl := Option.some.inj hr
  rwa [wholePart_intCast] at hwhole

theorem isWholePayload_of_denotesWhole (hm : m.tag ∈ wholeTags) (hv : v.DenotesWhole m.tag q)
    (hbase : (m.base column v).result = .ok (some base)) :
    IsWholePayload m.tag (wholePart q) base := by
  cases hv with
  | long i =>
    obtain ⟨r, hr, -, hwhole⟩ := exists_whole_of_read hm rfl rfl hbase
    rwa [← Option.some.inj hr] at hwhole
  | double hx =>
    obtain ⟨r, hr, -, hwhole⟩ := exists_whole_of_read hm rfl rfl hbase
    rw [Numeric.ofValue?, Option.bind_some, Numeric.toRat?, BinaryFloat.toRat?, if_pos hx] at hr
    rwa [← Option.some.inj hr] at hwhole
  | text hs hp =>
    rename_i s p
    obtain ⟨r, hr, hrange, hwhole⟩ :=
      exists_whole_of_read hm rfl (p.toRat?_of_isSpelledBy hs) hbase
    rwa [hp.wholePart_readRat? hm hr hrange] at hwhole

/-- A bound stays on its side of the cell, unless it moves to the cell. -/
theorem exists_whole_beside (hm : m.tag ∈ wholeTags) {row : FieldValue}
    (hrow : IsWholePayload m.tag n row) (hv : v.DenotesBeside m.tag n q)
    (hbase : (m.base column v).result = .ok (some base)) :
    ∃ k, IsWholePayload m.tag k base ∧ (q ≤ n → k ≤ n) ∧ (n ≤ q → n ≤ k) := by
  cases hv with
  | whole hv =>
    exact ⟨_, isWholePayload_of_denotesWhole hm hv hbase, wholePart_le, le_wholePart⟩
  | rounded hs hn =>
    rename_i s p
    obtain ⟨y, -, hy⟩ : ∃ y : Double, y.isFinite ∧ y.toRat = n := by
      rcases hn with htag | hn
      · rw [htag] at hrow
        exact hrow.exists_double
      · exact hn
    obtain ⟨r, hr, -, hwhole⟩ := exists_whole_of_read hm rfl (p.toRat?_of_isSpelledBy hs) hbase
    exact ⟨_, hwhole, fun h => wholePart_le (PlainDecimal.readRat?_le hr hy h),
      fun h => le_wholePart (PlainDecimal.le_readRat? hr hy h)⟩

end Mapper

/-! ## Searches -/

namespace Condition

variable {s : Schema} {m : Mapper} {field : String} {base : FieldValue} {n : Int}
  {bound : Option Value} {q? : Option Rat} {start : Option FieldValue} {included : Bool}

/-- The bounds of a range search are payloads of its field. -/
theorem compile_range_eq_ok (hfield : s.mapper? field = some m) (hm : m.tag ∈ wholeTags)
    {boost : Single} {lower upper : Option Value} {includeLower includeUpper : Bool}
    {query : Query} :
    ((leaf boost (.range field lower upper includeLower includeUpper)).compile s).result
        = .ok query ↔
      ∃ start stop, IsBound m lower start ∧ IsBound m upper stop ∧
        (Query.range field start stop includeLower includeUpper).boosted boost = query := by
  have hspatial : m.tag.isSpatial = false := by
    have every : ∀ t ∈ wholeTags, t.isSpatial = false := by decide
    exact every m.tag hm
  have hmapper : scalarMapper s field .range = .ok m := scalarMapper_eq_ok.2 ⟨hfield, hspatial⟩
  rw [compile, mapError_eq_ok, Condition.query, Leaf.query, hmapper]
  simp only [map_eq_ok, ok_bind, bind_eq_ok, bound_eq_ok, pure_eq_ok]
  constructor
  · rintro ⟨_, ⟨start, hstart, stop, hstop, rfl⟩, hquery⟩
    exact ⟨start, stop, hstart, hstop, hquery⟩
  · rintro ⟨start, stop, hstart, hstop, hquery⟩
    exact ⟨_, ⟨start, hstart, stop, hstop, rfl⟩, hquery⟩

/-- A bound, its exact number and its payload. The payload is that of a whole number on the same
side of the row, or of the row itself. -/
inductive Moves (t : MapperTag) (n : Int) :
    Option Value → Option Rat → Option FieldValue → Prop
  | absent : Moves t n none none none
  | present {v : Value} {q : Rat} {b : FieldValue} {k : Int} (hk : IsWholePayload t k b)
    (hlow : q ≤ n → k ≤ n) (hhigh : n ≤ q → n ≤ k)
    (hwhole : v.DenotesWhole t q → k = wholePart q) : Moves t n (some v) (some q) (some b)

theorem IsBound.moves (hm : m.tag ∈ wholeTags) (h : IsBound m bound start)
    (hbase : IsWholePayload m.tag n base)
    (hexact : Option.Rel (Value.DenotesBeside m.tag n) bound q?) :
    Moves m.tag n bound q? start := by
  cases hexact with
  | none =>
    obtain rfl : start = none := h
    exact .absent
  | @some v q hv =>
    have hcoerce : m.coerce m.field v = .ok start := h
    have hne : v ≠ .null := by
      rintro rfl
      cases hv with
      | whole hv => cases hv
    cases start with
    | none => exact absurd (Mapper.coerce_eq_none.1 hcoerce) hne
    | some b =>
      have hb := Mapper.base_eq_ok.2 hcoerce
      obtain ⟨k, hk, hlow, hhigh⟩ := Mapper.exists_whole_beside hm hbase hv hb
      refine .present hk hlow hhigh fun hwhole => ?_
      exact hk.unique (Mapper.isWholePayload_of_denotesWhole hm hwhole hb)

/-- A row above an exact lower bound is above the payload of the bound, or has that payload. -/
theorem IsBound.lower_iff (hm : m.tag ∈ wholeTags) (h : IsBound m bound start)
    (hexact : Option.Rel (Value.DenotesBeside m.tag n) bound q?)
    (hbase : IsWholePayload m.tag n base)
    (habove : ∀ q ∈ q?, if included then q ≤ n else q < n) :
    ((∀ b ∈ start, if included then b ≤ base else b < base) ↔
      (included = false → start ≠ some base)) ∧
    ∀ v ∈ bound, ∀ q ∈ q?, v.DenotesWhole m.tag q → included = false →
      (start = some base ↔ q < 0 ∧ n = ⌈q⌉) := by
  cases h.moves hm hbase hexact with
  | absent => simp
  | @present v q b k hk hlow _ hwhole =>
    have hq := habove q rfl
    constructor
    · simpa using hk.lower_iff hbase (hlow (le_of_included hq)) included
    · rintro _ ⟨⟩ _ ⟨⟩ hv rfl
      rw [Option.some.injEq, hk.eq_iff hbase, hwhole hv]
      exact wholePart_eq_iff_of_lt hq

/-- A row below an exact upper bound is below the payload of the bound, or has that payload. -/
theorem IsBound.upper_iff (hm : m.tag ∈ wholeTags) (h : IsBound m bound start)
    (hexact : Option.Rel (Value.DenotesBeside m.tag n) bound q?)
    (hbase : IsWholePayload m.tag n base)
    (hbelow : ∀ q ∈ q?, if included then n ≤ q else n < q) :
    ((∀ b ∈ start, if included then base ≤ b else base < b) ↔
      (included = false → start ≠ some base)) ∧
    ∀ v ∈ bound, ∀ q ∈ q?, v.DenotesWhole m.tag q → included = false →
      (start = some base ↔ 0 < q ∧ n = ⌊q⌋) := by
  cases h.moves hm hbase hexact with
  | absent => simp
  | @present v q b k hk _ hhigh hwhole =>
    have hq := hbelow q rfl
    constructor
    · simpa using hk.upper_iff hbase (hhigh (le_of_included hq)) included
    · rintro _ ⟨⟩ _ ⟨⟩ hv rfl
      rw [Option.some.injEq, hk.eq_iff hbase, hwhole hv]
      exact wholePart_eq_iff_of_gt hq

/-- In a field of whole numbers, a search for a range finds a row within the exact bounds unless a
bound that does not belong to the range has the payload of the row. A bound that is read with its
own whole part has that payload only if it has moved towards zero to the number of the row. -/
theorem compile_range_within_iff (hfield : s.mapper? field = some m) (hm : m.tag ∈ wholeTags)
    {boost : Single} {lower upper : Option Value} {includeLower includeUpper : Bool}
    {query : Query}
    (hquery : ((leaf boost (.range field lower upper includeLower includeUpper)).compile s).result
      = .ok query)
    {cell : Value} (hcell : cell.IsWhole n) {column : String}
    (hbase : (m.base column cell).result = .ok (some base)) {low high : Option Rat}
    (hlow : Option.Rel (Value.DenotesBeside m.tag n) lower low)
    (hhigh : Option.Rel (Value.DenotesBeside m.tag n) upper high)
    (hwithin : Within low high includeLower includeUpper (n : Rat)) :
    ∃ start stop,
      query = (Query.range field start stop includeLower includeUpper).boosted boost ∧
      (Within start stop includeLower includeUpper base ↔
        (includeLower = false → start ≠ some base) ∧
          (includeUpper = false → stop ≠ some base)) ∧
      (∀ v ∈ lower, ∀ q ∈ low, v.DenotesWhole m.tag q → includeLower = false →
        (start = some base ↔ q < 0 ∧ n = ⌈q⌉)) ∧
      ∀ v ∈ upper, ∀ q ∈ high, v.DenotesWhole m.tag q → includeUpper = false →
        (stop = some base ↔ 0 < q ∧ n = ⌊q⌋) := by
  obtain ⟨start, stop, hstart, hstop, rfl⟩ := (compile_range_eq_ok hfield hm).1 hquery
  have hpayload := Mapper.isWholePayload_of_isWhole hm hcell hbase
  obtain ⟨hlower, hlowerMoved⟩ := hstart.lower_iff hm hlow hpayload hwithin.lower
  obtain ⟨hupper, hupperMoved⟩ := hstop.upper_iff hm hhigh hpayload hwithin.upper
  refine ⟨start, stop, rfl, ?_, hlowerMoved, hupperMoved⟩
  rw [← hlower, ← hupper]
  exact ⟨fun h => ⟨h.lower, h.upper⟩, fun h => ⟨h.1, h.2⟩⟩

/-- Whole numbers of both widths. -/
def sampleStocks : Schema := .ofMappers .standard [Mapper.sampleStock, Mapper.sampleSold]

/-- Minus three and six tenths, which double precision does not have. -/
def sampleTenths : PlainDecimal where
  sign := .minus
  whole := ['3']
  fraction := ['6']
  whole_ne_nil := by decide
  isDigit_whole := List.all_eq_true.1 rfl
  isDigit_fraction := List.all_eq_true.1 rfl

/-- Two and a half with a sign. -/
def sampleHalves (negative : Bool) : Double :=
  .ofBits (if negative then 0xc004000000000000 else 0x4004000000000000)

theorem toRat_sampleHalves (negative : Bool) :
    (sampleHalves negative).isFinite ∧
      (sampleHalves negative).toRat = if negative then -5 / 2 else 5 / 2 := by
  cases negative with
  | false => exact ⟨by decide, by decide +kernel⟩
  | true => exact ⟨by decide, by decide +kernel⟩

/-- The payload of two and a half. -/
theorem isBound_sampleHalves (negative : Bool) :
    IsBound Mapper.sampleStock (some (.double (sampleHalves negative)))
      (some (.int (if negative then -2 else 2))) := by
  have hpayload : MapperKind.integer.ofNumber? (.fractional (sampleHalves negative))
      = some (.int (if negative then -2 else 2)) := by
    have htruncate : (Numeric.fractional (sampleHalves negative)).toInt? 32
        = some (if negative then -2 else 2) := by
      cases negative with
      | false => decide +kernel
      | true => decide +kernel
    rw [MapperKind.ofNumber?, htruncate]
    cases negative with
    | false => rfl
    | true => rfl
  exact Mapper.base_eq_ok.1 (Mapper.base_of_number (by decide) rfl (.inl rfl) rfl hpayload)

/-- The upper bound moves to the row and belongs to the range, and the lower bound moves to another
number. -/
theorem compile_range_within_iff_stock :
    sampleStocks.mapper? "stock" = some Mapper.sampleStock ∧
      Mapper.sampleStock.tag ∈ wholeTags ∧ (Value.long 2).IsWhole 2 ∧
      (Mapper.sampleStock.base "stock" (.long 2)).result = .ok (some (.int 2)) ∧
      Within (some (-18 / 5)) (some (5 / 2)) false true ((2 : Int) : Rat) ∧
      ∃ start stop,
        ((leaf defaultBoost (.range "stock" (some (.text "-3.6"))
            (some (.double (sampleHalves false))) false true)).compile sampleStocks).result
          = .ok ((Query.range "stock" start stop false true).boosted defaultBoost) ∧
        Within start stop false true (FieldValue.int 2) := by
  have hfield : sampleStocks.mapper? "stock" = some Mapper.sampleStock := rfl
  have hwhole : Mapper.sampleStock.tag ∈ wholeTags := by decide
  have hspelled : sampleTenths.IsSpelledBy "-3.6" := ⟨[], [], by simp, rfl⟩
  have hlow : (Value.text "-3.6").DenotesWhole Mapper.sampleStock.tag (-18 / 5) := by
    have hvalue : sampleTenths.toRat = -18 / 5 := by decide +kernel
    rw [← hvalue]
    exact .text hspelled (.short (by decide))
  have hhigh : (Value.double (sampleHalves false)).DenotesWhole Mapper.sampleStock.tag (5 / 2) := by
    obtain ⟨hfinite, hvalue⟩ := toRat_sampleHalves false
    rw [if_neg Bool.false_ne_true] at hvalue
    rw [← hvalue]
    exact .double hfinite
  have hlower : IsBound Mapper.sampleStock (some (.text "-3.6")) (some (.int (-3))) := by
    have hrounded : (Numeric.fractional sampleTenths.nearest).toInt? 32 = some (-3) := by
      decide +kernel
    refine Mapper.base_eq_ok.1 (Mapper.base_of_number (by decide) rfl (.inr (by decide))
      (sampleTenths.parse?_numeric hspelled) ?_)
    rw [if_neg (by decide), Mapper.sampleStock, MapperKind.ofNumber?, hrounded]
    rfl
  have hquery : ((leaf defaultBoost (.range "stock" (some (.text "-3.6"))
        (some (.double (sampleHalves false))) false true)).compile sampleStocks).result
      = .ok (.range "stock" (some (.int (-3))) (some (.int 2)) false true) :=
    (compile_range_eq_ok hfield hwhole).2 ⟨_, _, hlower, isBound_sampleHalves false, rfl⟩
  have hcell : (Value.long 2).IsWhole 2 := .long 2
  have hbase : (Mapper.sampleStock.base "stock" (.long 2)).result = .ok (some (.int 2)) := rfl
  have hwithin : Within (some (-18 / 5)) (some (5 / 2)) false true ((2 : Int) : Rat) := by
    constructor
    · rintro _ ⟨⟩
      norm_num
    · rintro _ ⟨⟩
      norm_num
  obtain ⟨start, stop, hrange, hfound, hmoved, -⟩ := compile_range_within_iff hfield hwhole hquery
    hcell hbase (.some (.whole hlow)) (.some (.whole hhigh)) hwithin
  refine ⟨hfield, hwhole, hcell, hbase, hwithin, start, stop, hrange ▸ hquery, hfound.2 ⟨?_, ?_⟩⟩
  · intro _ hstart
    have hceil := ((hmoved _ rfl _ rfl hlow rfl).1 hstart).2
    norm_num at hceil
  · intro h
    cases h

/-- Next to a number of double precision, which are four apart here. -/
def sampleFar : PlainDecimal where
  sign := .absent
  whole := "18014398509481986".toList
  fraction := ['5']
  whole_ne_nil := by decide
  isDigit_whole := List.all_eq_true.1 rfl
  isDigit_fraction := List.all_eq_true.1 rfl

/-- A row above a lower bound is lost if the bound moves to it, and also if the bound is a text that
is rounded past it. -/
theorem compile_range_loses :
    (sampleStocks.mapper? "stock" = some Mapper.sampleStock ∧
      (sampleHalves true).toRat = -5 / 2 ∧
      Within (some (-5 / 2)) none false false ((-2 : Int) : Rat) ∧
      (Mapper.sampleStock.base "stock" (.int (-2))).result = .ok (some (.int (-2))) ∧
      ((leaf defaultBoost (.range "stock" (some (.double (sampleHalves true))) none
          false false)).compile sampleStocks).result
        = .ok (.range "stock" (some (.int (-2))) none false false) ∧
      ¬Within (some (FieldValue.int (-2))) none false false (FieldValue.int (-2))) ∧
    sampleStocks.mapper? "sold" = some Mapper.sampleSold ∧
      sampleFar.IsSpelledBy "18014398509481986.5" ∧
      Within (some sampleFar.toRat) none true false ((18014398509481987 : Int) : Rat) ∧
      (Mapper.sampleSold.base "sold" (.long 18014398509481987)).result
        = .ok (some (.long 18014398509481987)) ∧
      ((leaf defaultBoost (.range "sold" (some (.text "18014398509481986.5")) none
          true false)).compile sampleStocks).result
        = .ok (.range "sold" (some (.long 18014398509481988)) none true false) ∧
      ¬Within (some (FieldValue.long 18014398509481988)) none true false
        (FieldValue.long 18014398509481987) := by
  have hstock : sampleStocks.mapper? "stock" = some Mapper.sampleStock := rfl
  have hsold : sampleStocks.mapper? "sold" = some Mapper.sampleSold := rfl
  have hspelled : sampleFar.IsSpelledBy "18014398509481986.5" := ⟨[], [], by simp, rfl⟩
  have hlower : IsBound Mapper.sampleSold (some (.text "18014398509481986.5"))
      (some (.long 18014398509481988)) := by
    have hrounded : (Numeric.fractional sampleFar.nearest).toInt? 64
        = some 18014398509481988 := by decide +kernel
    refine Mapper.base_eq_ok.1 (Mapper.base_of_number (by decide) rfl (.inr (by decide))
      (sampleFar.parse?_numeric hspelled) ?_)
    rw [if_neg (by decide), Mapper.sampleSold, MapperKind.ofNumber?, hrounded]
    rfl
  refine ⟨⟨hstock, (toRat_sampleHalves true).2, ?_, rfl, ?_, ?_⟩, hsold, hspelled, ?_, rfl, ?_, ?_⟩
  · constructor
    · rintro _ ⟨⟩
      norm_num
    · rintro _ ⟨⟩
  · exact (compile_range_eq_ok hstock (by decide)).2
      ⟨_, _, isBound_sampleHalves true, rfl, rfl⟩
  · intro h
    have hbelow : FieldValue.int (-2) < FieldValue.int (-2) := h.lower _ rfl
    cases hbelow with
    | int h => exact absurd h (by decide)
  · have hvalue : sampleFar.toRat = 36028797018963973 / 2 := by decide +kernel
    rw [hvalue]
    constructor
    · rintro _ ⟨⟩
      norm_num
    · rintro _ ⟨⟩
  · exact (compile_range_eq_ok hsold (by decide)).2 ⟨_, _, hlower, rfl, rfl⟩
  · intro h
    have hmost : FieldValue.long 18014398509481988 ≤ FieldValue.long 18014398509481987 :=
      h.lower _ rfl
    cases hmost with
    | long h => exact absurd h (by decide)

end Condition

end ColumnIndex
