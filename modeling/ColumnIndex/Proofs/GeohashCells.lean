import ColumnIndex.Proofs.DraftOptions
import ColumnIndex.Proofs.GeohashWalk
import ColumnIndex.Proofs.Number.ExactArithmetic
import Mathlib.Data.Rat.Floor

/-!
# Cells of geohashes

Halving an axis so many times cuts it into that power of two of equal parts, and the halves taken on
the way to a coordinate are the binary digits of the number of its part. All ends of the parts that
a hash needs are exact in double precision, so nothing is lost to rounding, and a coordinate on an
end belongs to the part above it, but for the upper end of the axis, which the last part keeps. A
hash spells the numbers of the two parts, their digits in turn, in base thirty-two. So it names a
cell of the globe, and points have the same hash where they have the same cell.

## Main definitions

* `edge` — the lower end of a part of an axis.
* `IsInPart` — the coordinates of a part.
* `partIndex` — the number of the part of a coordinate.
* `binaryDigits`, `interleave`, `base32` — how a hash spells two numbers.
* `IsInCell`, `cellNumber` — the points of a cell, and its number.

## Main statements

* `Interval.IsPart.half` — a half of a part is a part, and exact.
* `halvings_eq_binaryDigits` — the halves taken are binary digits.
* `geohash_eq_iff_cell` — a hash spells the number of a cell, and points have the same one if their
  cells are the same.
-/
namespace ColumnIndex.Geo

open BinaryFloat

/-! ## Parts of an axis -/

section Parts

variable {limit n j k : Nat} {q : Rat}

/-- The lower end of a part, when the axis up to the limit on both sides is cut `n` times. -/
def edge (limit n k : Nat) : Rat := 2 * limit * k / 2 ^ n - limit

/-- The coordinates of a part: those from its lower end on and below its upper end, and for the last
part that end as well. -/
def IsInPart (limit n k : Nat) (q : Rat) : Prop :=
  k < 2 ^ n ∧ edge limit n k ≤ q ∧ (q < edge limit n (k + 1) ∨ k + 1 = 2 ^ n)

instance (limit n k : Nat) (q : Rat) : Decidable (IsInPart limit n k q) :=
  inferInstanceAs (Decidable (_ ∧ _ ∧ _))

/-- The number of the part of a coordinate. -/
def partIndex (limit n : Nat) (q : Rat) : Nat :=
  min ⌊(q + limit) * 2 ^ n / (2 * limit)⌋₊ (2 ^ n - 1)

/-- The axis begins with the first part. -/
theorem edge_zero (limit n : Nat) : edge limit n 0 = -limit := by
  simp [edge]

/-- The axis ends with the last part. -/
theorem edge_two_pow (limit n : Nat) : edge limit n (2 ^ n) = limit := by
  unfold edge
  push_cast
  field_simp
  ring

/-- The ends of parts stay ends when all parts are cut. -/
theorem edge_succ_two_mul (limit n k : Nat) : edge limit (n + 1) (2 * k) = edge limit n k := by
  unfold edge
  rw [pow_succ]
  push_cast
  field_simp

/-- An end is a whole number over the power of two. -/
theorem edge_eq (limit n k : Nat) :
    edge limit n k = ((limit * (2 * k - 2 ^ n) : Int) : Rat) / 2 ^ n := by
  unfold edge
  push_cast
  field_simp

theorem natAbs_edge_le (limit : Nat) (hk : k ≤ 2 ^ n) :
    (limit * (2 * k - 2 ^ n) : Int).natAbs ≤ limit * 2 ^ n := by
  have hpow : (2 ^ n : Int) = (2 ^ n : Nat) := by push_cast; rfl
  have hfactor : (2 * k - 2 ^ n : Int).natAbs ≤ 2 ^ n := by
    rw [hpow]
    omega
  rw [Int.natAbs_mul, Int.natAbs_natCast]
  exact Nat.mul_le_mul_left limit hfactor

theorem partIndex_lt (limit n : Nat) (q : Rat) : partIndex limit n q < 2 ^ n := by
  have := Nat.two_pow_pos n
  unfold partIndex
  omega

/-- A coordinate is in the part with the number or above it if it is above the end. -/
theorem le_partIndex_iff (hlimit : limit ≠ 0) (hq : -limit ≤ q) (hj : j < 2 ^ n) :
    j ≤ partIndex limit n q ↔ edge limit n j ≤ q := by
  have hpos : (0 : Rat) < limit := by exact_mod_cast Nat.pos_of_ne_zero hlimit
  have hscaled : 0 ≤ (q + limit) * 2 ^ n / (2 * limit) := by
    have : 0 ≤ q + limit := by linarith
    positivity
  rw [partIndex, Nat.le_min, Nat.le_floor_iff hscaled, and_iff_left (by omega), edge,
    le_div_iff₀ (by positivity), sub_le_iff_le_add, div_le_iff₀ (by positivity), mul_comm (j : Rat)]

/-- The number of a part says which coordinates are in it. -/
theorem isInPart_iff (hlimit : limit ≠ 0) (hq : -limit ≤ q) :
    IsInPart limit n k q ↔ partIndex limit n q = k := by
  have hlt := partIndex_lt limit n q
  constructor
  · rintro ⟨hk, hlow, hhigh⟩
    apply le_antisymm
    · rcases hhigh with hhigh | hlast
      · by_contra habove
        have hedge := (le_partIndex_iff hlimit hq (n := n) (j := k + 1) (by omega)).1 (by omega)
        exact absurd hhigh (not_lt.2 hedge)
      · omega
    · exact (le_partIndex_iff hlimit hq hk).2 hlow
  · rintro rfl
    refine ⟨hlt, (le_partIndex_iff hlimit hq hlt).1 le_rfl, ?_⟩
    by_cases hlast : partIndex limit n q + 1 = 2 ^ n
    · exact .inr hlast
    · left
      rw [← not_le, ← le_partIndex_iff hlimit hq (by omega)]
      omega

/-- One cut more, and a part falls into two. -/
theorem partIndex_succ_div_two (hlimit : limit ≠ 0) (hq : -limit ≤ q) :
    partIndex limit (n + 1) q / 2 = partIndex limit n q := by
  have hlt := partIndex_lt limit n q
  have hlt' := partIndex_lt limit (n + 1) q
  rw [pow_succ] at hlt'
  have hle : ∀ j < 2 ^ n, j ≤ partIndex limit (n + 1) q / 2 ↔ j ≤ partIndex limit n q := by
    intro j hj
    rw [Nat.le_div_iff_mul_le two_pos, mul_comm, le_partIndex_iff hlimit hq (by omega),
      le_partIndex_iff hlimit hq hj, edge_succ_two_mul]
  exact le_antisymm ((hle _ (by omega)).1 le_rfl) ((hle _ hlt).2 le_rfl)

theorem partIndex_add_div_pow (hlimit : limit ≠ 0) (hq : -limit ≤ q) (m : Nat) :
    partIndex limit (n + m) q / 2 ^ m = partIndex limit n q := by
  induction m with
  | zero => simp
  | succ m ih =>
    rw [← ih, ← partIndex_succ_div_two hlimit hq (n := n + m), Nat.div_div_eq_div_mul, ← pow_succ']
    rfl

end Parts

/-! ## Halves -/

section Halves

variable {limit n k : Nat} {q : Rat} {x y : Double} {i first second : Interval}

/-- The interval is a part of the axis, with both ends exact. -/
structure Interval.IsPart (limit n k : Nat) (i : Interval) : Prop where
  low : i.low.toRat? = some (edge limit n k)
  high : i.high.toRat? = some (edge limit n (k + 1))

/-- An axis that is not cut is its only part. -/
theorem isPart_axis (h : limit ≤ 2 ^ 53) :
    (⟨.ofInt (-limit), .ofInt limit⟩ : Interval).IsPart limit 0 0 := by
  constructor
  · rw [toRat?_ofInt (by omega), edge_zero, Int.cast_neg, Int.cast_natCast]
  · rw [toRat?_ofInt (by omega), Int.cast_natCast]
    exact congrArg some (edge_two_pow limit 0).symm

/-- The middle of an interval is exact when the sum of its ends is. -/
theorem Interval.toRat?_middle {a b : Int} (hlow : i.low.toRat? = some (a / 2 ^ n : Rat))
    (hhigh : i.high.toRat? = some (b / 2 ^ n : Rat)) (hsum : (a + b).natAbs ≤ 2 ^ 53)
    (hn : n < 1000) : i.middle.toRat? = some ((a + b : Int) / 2 ^ (n + 1) : Rat) := by
  obtain ⟨negative, hadd⟩ := exists_add_eq hlow hhigh
  rw [← add_div, ← Int.cast_add] at hadd
  obtain ⟨negative', hdiv⟩ := exists_div_eq (toRat?_ofRat_dyadic negative hsum hn.le)
    (toRat?_ofInt (i := 2) (by decide)) (by norm_num)
  rw [div_div, Int.cast_ofNat, ← pow_succ] at hdiv
  rw [Interval.middle, hadd, hdiv, toRat?_ofRat_dyadic _ hsum hn]

/-- The middle of a part is the end between its halves, while all ends fit the format. -/
theorem Interval.IsPart.toRat?_middle (h : i.IsPart limit n k) (hk : k < 2 ^ n)
    (hfits : limit * 2 ^ (n + 1) ≤ 2 ^ 53) (hn : n < 1000) :
    i.middle.toRat? = some (edge limit (n + 1) (2 * k + 1)) := by
  have hends : (limit * (2 * k - 2 ^ n) + limit * (2 * (k + 1 : Nat) - 2 ^ n) : Int)
      = limit * (2 * (2 * k + 1 : Nat) - 2 ^ (n + 1)) := by
    rw [pow_succ]
    push_cast
    ring
  have hsmall : (limit * (2 * (2 * k + 1 : Nat) - 2 ^ (n + 1)) : Int).natAbs ≤ 2 ^ 53 :=
    (natAbs_edge_le limit (by rw [pow_succ]; omega)).trans hfits
  have hlow := h.low
  have hhigh := h.high
  rw [edge_eq] at hlow hhigh
  rw [edge_eq, ← hends]
  exact Interval.toRat?_middle hlow hhigh (hends ▸ hsmall) hn

/-- The half of a part that a coordinate is in is the part of one cut more, and its number says
which half that is. -/
theorem Interval.IsPart.half (hx : x.toRat? = some q) (hlimit : limit ≠ 0) (hq : -limit ≤ q)
    (h : i.IsPart limit n (partIndex limit n q)) (hfits : limit * 2 ^ (n + 1) ≤ 2 ^ 53) :
    i.inUpper x = (partIndex limit (n + 1) q % 2 == 1) ∧
      (i.half x).IsPart limit (n + 1) (partIndex limit (n + 1) q) := by
  have hn : n + 1 ≤ 53 := by
    rw [← Nat.pow_le_pow_iff_right one_lt_two]
    exact (Nat.le_mul_of_pos_left _ (Nat.pos_of_ne_zero hlimit)).trans hfits
  have hlt := partIndex_lt limit n q
  have hmiddle := h.toRat?_middle hlt hfits (by omega)
  have hdiv := partIndex_succ_div_two (n := n) hlimit hq
  -- The upper half begins at the middle, so the number of the part tells it by being odd.
  have hupper : i.inUpper x ↔ 2 * partIndex limit n q + 1 ≤ partIndex limit (n + 1) q := by
    obtain ⟨hfinite, hvalue⟩ := toRat?_eq_some.1 hx
    obtain ⟨hfinite', hvalue'⟩ := toRat?_eq_some.1 hmiddle
    rw [Interval.inUpper, le_iff hfinite' hfinite, hvalue, hvalue',
      le_partIndex_iff hlimit hq (by rw [pow_succ]; omega)]
  have hlow := h.low
  have hhigh := h.high
  rw [← edge_succ_two_mul] at hlow hhigh
  cases hcase : i.inUpper x with
  | true =>
    have hodd : partIndex limit (n + 1) q = 2 * partIndex limit n q + 1 := by
      have := hupper.1 hcase
      omega
    rw [Interval.half, if_pos hcase, hodd]
    exact ⟨(beq_iff_eq.2 (by omega)).symm, hmiddle, hhigh⟩
  | false =>
    have heven : partIndex limit (n + 1) q = 2 * partIndex limit n q := by
      have := mt hupper.2 (by simp [hcase])
      omega
    rw [Interval.half, if_neg (by simp [hcase]), heven]
    exact ⟨(beq_eq_false_iff_ne.2 (by omega)).symm, hlow, hmiddle⟩

/-- The halves of one interval taken on the way to a coordinate, so many of them. -/
def halvings (i : Interval) (x : Double) : Nat → List Bool
  | 0 => []
  | n + 1 => i.inUpper x :: halvings (i.half x) x n

/-- The binary digits of a number, so many of them, the first one counting most. -/
def binaryDigits : Nat → Nat → List Bool
  | 0, _ => []
  | n + 1, k => k.testBit n :: binaryDigits n k

/-- From a part on, the halves taken are the digits that the number of the last part has more. -/
theorem halvings_eq_binaryDigits (hx : x.toRat? = some q) (hlimit : limit ≠ 0) (hq : -limit ≤ q)
    (h : i.IsPart limit n (partIndex limit n q)) {m : Nat}
    (hfits : limit * 2 ^ (n + m) ≤ 2 ^ 53) :
    halvings i x m = binaryDigits m (partIndex limit (n + m) q) := by
  induction m generalizing i n with
  | zero => rfl
  | succ m ih =>
    have hfits' : limit * 2 ^ (n + 1) ≤ 2 ^ 53 :=
      (Nat.mul_le_mul_left limit (Nat.pow_le_pow_right two_pos (by omega))).trans hfits
    obtain ⟨hbit, hpart⟩ := h.half hx hlimit hq hfits'
    have hnumber : n + (m + 1) = n + 1 + m := by omega
    rw [hnumber] at hfits ⊢
    rw [halvings, binaryDigits, ih hpart hfits, Nat.testBit_eq_decide_div_mod_eq,
      partIndex_add_div_pow hlimit hq, hbit]
    rfl

/-- On the whole axis they are the digits of the number of the part. -/
theorem halvings_axis (h : IsWithin limit x) (hlimit : limit ≠ 0) {m : Nat}
    (hfits : limit * 2 ^ m ≤ 2 ^ 53) :
    halvings ⟨.ofInt (-limit), .ofInt limit⟩ x m = binaryDigits m (partIndex limit m x.toRat) := by
  have hzero : partIndex limit 0 x.toRat = 0 := Nat.lt_one_iff.1 (partIndex_lt limit 0 x.toRat)
  have hlimit' : limit ≤ 2 ^ 53 := (Nat.le_mul_of_pos_right _ (Nat.two_pow_pos m)).trans hfits
  have hpart : (⟨.ofInt (-limit), .ofInt limit⟩ : Interval).IsPart limit 0
      (partIndex limit 0 x.toRat) := by
    rw [hzero]
    exact isPart_axis hlimit'
  rw [← Nat.zero_add m] at hfits
  rw [halvings_eq_binaryDigits (toRat?_eq_some.2 ⟨h.1, rfl⟩) hlimit h.2.1 hpart hfits,
    Nat.zero_add]

end Halves

/-! ## Spellings -/

section Spellings

theorem numberOfBits_append (as bs : List Bool) :
    numberOfBits (as ++ bs) = numberOfBits as * 2 ^ bs.length + numberOfBits bs := by
  induction bs using List.reverseRecOn with
  | nil => simp [numberOfBits]
  | append_singleton bs b ih =>
    rw [← List.append_assoc, numberOfBits_concat, numberOfBits_concat, ih, List.length_append,
      List.length_singleton, pow_succ]
    ring

/-- Bits are known from the number they spell and from how many they are. -/
theorem numberOfBits_inj {as bs : List Bool} (hlength : as.length = bs.length) :
    numberOfBits as = numberOfBits bs ↔ as = bs := by
  refine ⟨fun h => ?_, fun h => h ▸ rfl⟩
  induction as using List.reverseRecOn generalizing bs with
  | nil => exact (List.eq_nil_of_length_eq_zero hlength.symm).symm
  | append_singleton as a ih =>
    rcases List.eq_nil_or_concat bs with rfl | ⟨bs, b, rfl⟩
    · simp at hlength
    · rw [List.concat_eq_append] at *
      rw [numberOfBits_concat, numberOfBits_concat] at h
      have ha : a.toNat ≤ 1 := Bool.toNat_le a
      have hb : b.toNat ≤ 1 := Bool.toNat_le b
      have hlast : a = b := by
        have hnumber : a.toNat = b.toNat := by omega
        rw [← Bool.ofNat_toNat a, hnumber, Bool.ofNat_toNat]
      rw [ih (by simpa using hlength) (by omega), hlast]

theorem length_binaryDigits (n k : Nat) : (binaryDigits n k).length = n := by
  induction n with
  | zero => rfl
  | succ n ih => rw [binaryDigits, List.length_cons, ih]

/-- The digits of a number spell it, as far as they go. -/
theorem numberOfBits_binaryDigits (n k : Nat) : numberOfBits (binaryDigits n k) = k % 2 ^ n := by
  induction n with
  | zero => rw [pow_zero, Nat.mod_one]; rfl
  | succ n ih =>
    rw [binaryDigits, ← List.singleton_append, numberOfBits_append, ih, length_binaryDigits,
      Nat.mod_pow_succ, ← Nat.toNat_testBit]
    simp [numberOfBits]
    ring

theorem binaryDigits_inj {n j k : Nat} (hj : j < 2 ^ n) (hk : k < 2 ^ n) :
    binaryDigits n j = binaryDigits n k ↔ j = k := by
  rw [← numberOfBits_inj (by rw [length_binaryDigits, length_binaryDigits]),
    numberOfBits_binaryDigits, numberOfBits_binaryDigits, Nat.mod_eq_of_lt hj, Nat.mod_eq_of_lt hk]

/-- The bits of two lists in turn, and then what is left of the longer one. -/
def interleave : List Bool → List Bool → List Bool
  | [], bs => bs
  | a :: as, bs => a :: interleave bs as
termination_by as bs => as.length + bs.length

theorem length_interleave (as bs : List Bool) :
    (interleave as bs).length = as.length + bs.length := by
  fun_induction interleave as bs with
  | case1 bs => simp
  | case2 a as bs ih =>
    rw [List.length_cons, ih, List.length_cons]
    omega

/-- Lists of known lengths can be taken apart again. -/
theorem interleave_inj {as bs as' bs' : List Bool} (ha : as.length = as'.length)
    (hb : bs.length = bs'.length) :
    interleave as bs = interleave as' bs' ↔ as = as' ∧ bs = bs' := by
  fun_induction interleave as bs generalizing as' bs' with
  | case1 bs =>
    obtain rfl : as' = [] := List.eq_nil_of_length_eq_zero ha.symm
    rw [interleave]
    exact (and_iff_right rfl).symm
  | case2 a as bs ih =>
    obtain ⟨a', as', rfl⟩ := List.exists_cons_of_length_eq_add_one ha.symm
    rw [interleave, List.cons.injEq, List.cons.injEq, ih hb (by simpa using ha), and_assoc,
      and_comm (a := bs = bs')]

/-- Each axis is halved every other time. -/
theorem geohashBits_eq_interleave (first second : Interval) (x y : Double) (n : Nat) :
    geohashBits first second x y n =
      interleave (halvings first x ((n + 1) / 2)) (halvings second y (n / 2)) := by
  induction n generalizing first second x y with
  | zero => rw [Nat.zero_div, halvings, halvings, interleave]; rfl
  | succ n ih =>
    have hhalf : (n + 1 + 1) / 2 = n / 2 + 1 := by omega
    rw [hhalf, halvings, interleave, ← ih, geohashBits]

/-- The digits of a number in base thirty-two, so many of them, the first one counting most. -/
def base32 : Nat → Nat → List Char
  | 0, _ => []
  | p + 1, k => base32 p (k / 32) ++ [geohashAlphabet.getD (k % 32) '0']

theorem geohashChars_eq_base32 {bits : List Bool} {p : Nat} (h : bits.length = 5 * p) :
    geohashChars bits = base32 p (numberOfBits bits) := by
  induction p generalizing bits with
  | zero =>
    rw [List.eq_nil_of_length_eq_zero h]
    rfl
  | succ p ih =>
    obtain ⟨as, five, rfl, has⟩ : ∃ as five, as ++ five = bits ∧ as.length = 5 * p :=
      ⟨bits.take (5 * p), bits.drop (5 * p), List.take_append_drop .., by
        rw [List.length_take]
        omega⟩
    have hfive : five.length = 5 := by
      rw [List.length_append] at h
      omega
    have hlt := numberOfBits_lt five
    rw [hfive] at hlt
    have hnumber : numberOfBits (as ++ five) = numberOfBits as * 32 + numberOfBits five := by
      rw [numberOfBits_append, hfive]
    have hdiv : numberOfBits (as ++ five) / 32 = numberOfBits as := by omega
    have hmod : numberOfBits (as ++ five) % 32 = numberOfBits five := by omega
    rw [geohashChars_append has, geohashChars_five hfive, base32, hdiv, hmod, ih has]

theorem length_base32 (p k : Nat) : (base32 p k).length = p := by
  induction p generalizing k with
  | zero => rfl
  | succ p ih => rw [base32, List.length_append, ih, List.length_singleton]

/-- No character stands for two digits. -/
theorem getD_geohashAlphabet_inj {j k : Nat} (hj : j < 32) (hk : k < 32)
    (h : geohashAlphabet.getD j '0' = geohashAlphabet.getD k '0') : j = k := by
  have hnodup : geohashAlphabet.Nodup := by decide
  rw [List.getD_eq_getElem?_getD, List.getD_eq_getElem?_getD, List.getElem?_eq_getElem hj,
    List.getElem?_eq_getElem hk, Option.getD_some, Option.getD_some] at h
  exact hnodup.getElem_inj_iff.1 h

theorem base32_inj {p j k : Nat} (hj : j < 32 ^ p) (hk : k < 32 ^ p) :
    base32 p j = base32 p k ↔ j = k := by
  refine ⟨fun h => ?_, fun h => h ▸ rfl⟩
  induction p generalizing j k with
  | zero => omega
  | succ p ih =>
    obtain ⟨hinit, hlast⟩ := List.append_inj h (by rw [length_base32, length_base32])
    have hdigit := getD_geohashAlphabet_inj (Nat.mod_lt j (by decide)) (Nat.mod_lt k (by decide))
      (List.singleton_inj.1 hlast)
    rw [pow_succ] at hj hk
    have hrest := ih (by omega) (by omega) hinit
    omega

end Spellings

/-! ## Cells -/

section Cells

/-- How often a hash halves the longitudes. -/
def longitudeCuts (p : Nat) : Nat := (5 * p + 1) / 2

/-- How often a hash halves the latitudes. -/
def latitudeCuts (p : Nat) : Nat := 5 * p / 2

/-- The points of the cell in a column and a row of the grid for so many characters. -/
structure IsInCell (p column row : Nat) (latitude longitude : Rat) : Prop where
  longitude : IsInPart 180 (longitudeCuts p) column longitude
  latitude : IsInPart 90 (latitudeCuts p) row latitude

/-- The number of a cell: the digits of the column and those of the row in turn. -/
def cellNumber (p column row : Nat) : Nat :=
  numberOfBits
    (interleave (binaryDigits (longitudeCuts p) column) (binaryDigits (latitudeCuts p) row))

theorem length_cellDigits (p column row : Nat) :
    (interleave (binaryDigits (longitudeCuts p) column)
      (binaryDigits (latitudeCuts p) row)).length = 5 * p := by
  rw [length_interleave, length_binaryDigits, length_binaryDigits, longitudeCuts, latitudeCuts]
  omega

theorem cellNumber_lt (p column row : Nat) : cellNumber p column row < 32 ^ p := by
  have h := numberOfBits_lt
    (interleave (binaryDigits (longitudeCuts p) column) (binaryDigits (latitudeCuts p) row))
  rwa [length_cellDigits, pow_mul] at h

/-- Cells are told apart by their numbers. -/
theorem cellNumber_inj {p column row column' row' : Nat} (hcolumn : column < 2 ^ longitudeCuts p)
    (hrow : row < 2 ^ latitudeCuts p) (hcolumn' : column' < 2 ^ longitudeCuts p)
    (hrow' : row' < 2 ^ latitudeCuts p) :
    cellNumber p column row = cellNumber p column' row' ↔ column = column' ∧ row = row' := by
  rw [cellNumber, cellNumber,
    numberOfBits_inj (by rw [length_cellDigits, length_cellDigits]),
    interleave_inj (by rw [length_binaryDigits, length_binaryDigits])
      (by rw [length_binaryDigits, length_binaryDigits]),
    binaryDigits_inj hcolumn hcolumn', binaryDigits_inj hrow hrow']

variable {p : Nat} {latitude longitude latitude' longitude' : Double}

/-- A point on the globe is in the cell that its parts give, and in no other. -/
theorem isInCell_iff (hlatitude : isLatitude latitude) (hlongitude : isLongitude longitude)
    {column row : Nat} :
    IsInCell p column row latitude.toRat longitude.toRat ↔
      partIndex 180 (longitudeCuts p) longitude.toRat = column ∧
        partIndex 90 (latitudeCuts p) latitude.toRat = row := by
  obtain ⟨-, hlatitude, -⟩ := isLatitude_iff.1 hlatitude
  obtain ⟨-, hlongitude, -⟩ := isLongitude_iff.1 hlongitude
  rw [← isInPart_iff (by decide) hlongitude, ← isInPart_iff (by decide) hlatitude]
  exact ⟨fun h => ⟨h.longitude, h.latitude⟩, fun h => ⟨h.1, h.2⟩⟩

/-- A hash spells the number of the cell. -/
theorem geohash_eq_base32 (hp : p ≤ 12) (hlatitude : isLatitude latitude)
    (hlongitude : isLongitude longitude) :
    geohash latitude longitude p = String.ofList (base32 p (cellNumber p
      (partIndex 180 (longitudeCuts p) longitude.toRat)
      (partIndex 90 (latitudeCuts p) latitude.toRat))) := by
  have hcuts : longitudeCuts p ≤ 30 ∧ latitudeCuts p ≤ 30 := by
    unfold longitudeCuts latitudeCuts
    omega
  have hfits {limit cuts : Nat} (hlimit : limit ≤ 180) (hcuts : cuts ≤ 30) :
      limit * 2 ^ cuts ≤ 2 ^ 53 :=
    (Nat.mul_le_mul hlimit (Nat.pow_le_pow_right two_pos hcuts)).trans (by decide)
  have hcolumn : halvings longitudes longitude ((5 * p + 1) / 2)
      = binaryDigits (longitudeCuts p) (partIndex 180 (longitudeCuts p) longitude.toRat) :=
    halvings_axis (isLongitude_iff.1 hlongitude) (by decide)
      (hfits (by decide) hcuts.1)
  have hrow : halvings latitudes latitude (5 * p / 2)
      = binaryDigits (latitudeCuts p) (partIndex 90 (latitudeCuts p) latitude.toRat) :=
    halvings_axis (isLatitude_iff.1 hlatitude) (by decide)
      (hfits (by decide) hcuts.2)
  rw [geohash, geohashChars_eq_base32 (length_geohashBits ..), geohashBits_eq_interleave, hcolumn,
    hrow, cellNumber]

/-- Up to twelve characters, the hash of a point spells in base thirty-two the digits of the number
of its column and those of its row in turn. Points have the same hash if they are in the same
cell, and only then. -/
theorem geohash_eq_iff_cell (hp : p ≤ 12) (hlatitude : isLatitude latitude)
    (hlongitude : isLongitude longitude) (hlatitude' : isLatitude latitude')
    (hlongitude' : isLongitude longitude') :
    geohash latitude longitude p = String.ofList (base32 p (cellNumber p
        (partIndex 180 (longitudeCuts p) longitude.toRat)
        (partIndex 90 (latitudeCuts p) latitude.toRat))) ∧
      (geohash latitude longitude p = geohash latitude' longitude' p ↔
        ∃ column row, IsInCell p column row latitude.toRat longitude.toRat ∧
          IsInCell p column row latitude'.toRat longitude'.toRat) := by
  refine ⟨geohash_eq_base32 hp hlatitude hlongitude, ?_⟩
  have hlt (limit cuts : Nat) (q : Rat) := partIndex_lt limit cuts q
  rw [geohash_eq_base32 hp hlatitude hlongitude, geohash_eq_base32 hp hlatitude' hlongitude',
    String.ofList_inj, base32_inj (cellNumber_lt ..) (cellNumber_lt ..),
    cellNumber_inj (hlt ..) (hlt ..) (hlt ..) (hlt ..)]
  simp only [isInCell_iff hlatitude hlongitude, isInCell_iff hlatitude' hlongitude']
  constructor
  · rintro ⟨hcolumn, hrow⟩
    exact ⟨_, _, ⟨hcolumn, hrow⟩, rfl, rfl⟩
  · rintro ⟨column, row, ⟨rfl, rfl⟩, hcolumn, hrow⟩
    exact ⟨hcolumn.symm, hrow.symm⟩

/-- At the pole, the date line ends a cell that reaches a little way to the west. -/
theorem geohash_eq_iff_cell_date_line :
    (12 ≤ 12 ∧ isLatitude (.ofInt 90) ∧ isLongitude (.ofInt 180) ∧
        isLongitude (.ofRat false (180 - 1 / 2 ^ 22))) ∧
      geohash (.ofInt 90) (.ofInt 180) 12 = "zzzzzzzzzzzz" ∧
      geohash (.ofInt 90) (.ofInt 180) 12
        = geohash (.ofInt 90) (.ofRat false (180 - 1 / 2 ^ 22)) 12 := by
  have hpole : isLatitude (.ofInt 90) := by decide +kernel
  have hline : isLongitude (.ofInt 180) := by decide +kernel
  have hwest : isLongitude (.ofRat false (180 - 1 / 2 ^ 22)) := by decide +kernel
  obtain ⟨-, hsame⟩ := geohash_eq_iff_cell (p := 12) le_rfl hpole hline hpole hwest
  refine ⟨⟨le_rfl, hpole, hline, hwest⟩, by decide +kernel, hsame.2 ?_⟩
  -- Both are in the last column and the last row.
  refine ⟨2 ^ 30 - 1, 2 ^ 30 - 1, ?_, ?_⟩
  · exact ⟨by decide +kernel, by decide +kernel⟩
  · exact ⟨by decide +kernel, by decide +kernel⟩

end Cells

end ColumnIndex.Geo
