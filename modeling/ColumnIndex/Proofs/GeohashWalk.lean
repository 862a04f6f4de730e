import ColumnIndex.Proofs.Geohash
import Mathlib.Data.List.Induction

/-!
# Walks to a geohash

A hash can be found in one walk that halves the two intervals in turn, collects the bits, and
writes a character after every fifth one, until there are enough. The walk has to end, and has to
find a character for its bits each time; both follow from how many bits are pending at each step.
Where it ends does not depend on the point being one on the globe, or a number at all. A walk for a
longer hash begins with the one for a shorter hash, so the shorter hash is the start of the longer.

## Main definitions

* `Walk` — where a walk stands.
* `Walk.next?` — one step, if there is a character for the bits.
* `Walk.Ends` — a walk of so many steps.

## Main statements

* `Walk.ends_of_stands` — every walk that stands well ends.
* `geohash_nested` — hashes of a point are found, and lie in each other.
-/
namespace ColumnIndex.Geo

/-! ## Numbers of bits -/

theorem numberOfBits_concat (bits : List Bool) (b : Bool) :
    numberOfBits (bits ++ [b]) = 2 * numberOfBits bits + b.toNat := by
  simp [numberOfBits]

theorem numberOfBits_lt (bits : List Bool) : numberOfBits bits < 2 ^ bits.length := by
  induction bits using List.reverseRecOn with
  | nil => exact Nat.one_pos
  | append_singleton bits b ih =>
    have hb : b.toNat ≤ 1 := Bool.toNat_le b
    rw [numberOfBits_concat, List.length_append, List.length_singleton, Nat.pow_succ]
    omega

/-! ## Characters -/

/-- Five bits spell a number that there is a character for. -/
theorem getElem?_geohashAlphabet {bits : List Bool} (h : bits.length = 5) :
    geohashAlphabet[numberOfBits bits]? = some (geohashAlphabet.getD (numberOfBits bits) '0') := by
  have hlt := numberOfBits_lt bits
  rw [h] at hlt
  have hbound : numberOfBits bits < geohashAlphabet.length := hlt
  rw [List.getD_eq_getElem?_getD, List.getElem?_eq_getElem hbound, Option.getD_some]

/-- The characters of bits that fill characters come first. -/
theorem geohashChars_append {as : List Bool} {n : Nat} (h : as.length = 5 * n) (bs : List Bool) :
    geohashChars (as ++ bs) = geohashChars as ++ geohashChars bs := by
  induction n generalizing as with
  | zero =>
    rw [List.length_eq_zero_iff.1 h]
    rfl
  | succ n ih =>
    match as, h with
    | a :: b :: c :: d :: e :: rest, h =>
      have hrest : rest.length = 5 * n := by
        simp only [List.length_cons] at h
        omega
      simp only [List.cons_append, geohashChars, ih hrest]

theorem geohashChars_five {bits : List Bool} (h : bits.length = 5) :
    geohashChars bits = [geohashAlphabet.getD (numberOfBits bits) '0'] := by
  match bits, h with
  | [a, b, c, d, e], _ => rfl

theorem mem_geohashAlphabet {bits : List Bool} {c : Char} (h : c ∈ geohashChars bits) :
    c ∈ geohashAlphabet := by
  fun_induction geohashChars bits with
  | case1 a b c' d e rest ih =>
    rcases List.mem_cons.1 h with rfl | h
    · exact List.mem_of_getElem? (getElem?_geohashAlphabet rfl)
    · exact ih h
  | case2 => cases h

/-- The first halves are the same, however many follow. -/
theorem geohashBits_prefix (first second : Interval) (x y : Double) {m n : Nat} (h : m ≤ n) :
    geohashBits first second x y m <+: geohashBits first second x y n := by
  induction m generalizing first second x y n with
  | zero => exact List.nil_prefix
  | succ m ih =>
    obtain ⟨n, rfl⟩ : ∃ k, n = k + 1 := ⟨n - 1, by omega⟩
    rw [geohashBits, geohashBits, List.prefix_cons_inj]
    exact ih _ _ _ _ (Nat.le_of_succ_le_succ h)

/-! ## Walks -/

/-- Where a walk stands: what is left of the globe, which axis is halved next, the bits since the
last character, and the characters so far. -/
structure Walk where
  longitudes : Interval
  latitudes : Interval
  /-- Whether the longitudes are halved next. -/
  even : Bool
  /-- The number that the bits since the last character spell. -/
  bits : Nat
  bitCount : Nat
  hash : List Char

namespace Walk

/-- The whole globe, and nothing written. -/
def start : Walk := ⟨Geo.longitudes, Geo.latitudes, true, 0, 0, []⟩

/-- The half that is taken next. -/
def bit (latitude longitude : Double) (w : Walk) : Bool :=
  if w.even then w.longitudes.inUpper longitude else w.latitudes.inUpper latitude

/-- What is left when it is taken, with the other axis next. -/
def halved (latitude longitude : Double) (w : Walk) : Walk :=
  { w with
    longitudes := if w.even then w.longitudes.half longitude else w.longitudes
    latitudes := if w.even then w.latitudes else w.latitudes.half latitude
    even := !w.even }

/-- One step: a bit, and a character if it was the fifth. There is no step if there is no character
for the bits. -/
def next? (latitude longitude : Double) (w : Walk) : Option Walk :=
  let bits := 2 * w.bits + (w.bit latitude longitude).toNat
  let rest := w.halved latitude longitude
  if w.bitCount + 1 = 5 then
    geohashAlphabet[bits]?.map fun c =>
      { rest with bits := 0, bitCount := 0, hash := w.hash ++ [c] }
  else some { rest with bits := bits, bitCount := w.bitCount + 1 }

/-- A walk of so many steps that goes on while the hash is too short. -/
inductive Ends (latitude longitude : Double) (precision : Nat) : Nat → Walk → Walk → Prop
  | stop {w : Walk} (h : ¬w.hash.length < precision) : Ends latitude longitude precision 0 w w
  | step {n : Nat} {w w' w'' : Walk} (h : w.hash.length < precision)
      (hnext : w.next? latitude longitude = some w')
      (hrest : Ends latitude longitude precision n w' w'') :
      Ends latitude longitude precision (n + 1) w w''

/-- The halves that are still to be taken. -/
def ahead (latitude longitude : Double) (w : Walk) (n : Nat) : List Bool :=
  if w.even then geohashBits w.longitudes w.latitudes longitude latitude n
  else geohashBits w.latitudes w.longitudes latitude longitude n

variable {latitude longitude : Double} {w : Walk} {pending : List Bool}

theorem ahead_succ (w : Walk) (n : Nat) : w.ahead latitude longitude (n + 1) =
    w.bit latitude longitude :: (w.halved latitude longitude).ahead latitude longitude n := by
  obtain ⟨longitudes, latitudes, even, bits, bitCount, hash⟩ := w
  cases even with
  | false => rfl
  | true => rfl

/-- The bits since the last character are these, fewer than fill one. -/
structure Stands (w : Walk) (pending : List Bool) : Prop where
  bits_eq : w.bits = numberOfBits pending
  bitCount_eq : w.bitCount = pending.length
  length_lt : pending.length < 5

theorem stands_start : start.Stands [] := ⟨rfl, rfl, by decide⟩

/-- A step that fills no character leaves one more bit pending. -/
theorem Stands.next_pending (h : w.Stands pending) (hlength : pending.length + 1 < 5) :
    ∃ w', w.next? latitude longitude = some w' ∧
      w'.Stands (pending ++ [w.bit latitude longitude]) ∧ w'.hash = w.hash ∧
      w'.ahead latitude longitude = (w.halved latitude longitude).ahead latitude longitude := by
  refine ⟨{ w.halved latitude longitude with
    bits := 2 * w.bits + (w.bit latitude longitude).toNat, bitCount := w.bitCount + 1 },
    ?_, ⟨?_, ?_, ?_⟩, rfl, rfl⟩
  · rw [next?, if_neg (by rw [h.bitCount_eq]; omega)]
  · rw [numberOfBits_concat, ← h.bits_eq]
  · rw [List.length_append, List.length_singleton, ← h.bitCount_eq]
  · rwa [List.length_append, List.length_singleton]

/-- The fifth bit fills a character, for which there is one. -/
theorem Stands.next_full (h : w.Stands pending) (hlength : pending.length + 1 = 5) :
    ∃ w', w.next? latitude longitude = some w' ∧ w'.Stands [] ∧
      w'.hash = w.hash ++ geohashChars (pending ++ [w.bit latitude longitude]) ∧
      w'.ahead latitude longitude = (w.halved latitude longitude).ahead latitude longitude := by
  have hfive : (pending ++ [w.bit latitude longitude]).length = 5 := by
    rw [List.length_append, List.length_singleton, hlength]
  have hbits : 2 * w.bits + (w.bit latitude longitude).toNat
      = numberOfBits (pending ++ [w.bit latitude longitude]) := by
    rw [numberOfBits_concat, ← h.bits_eq]
  refine ⟨{ w.halved latitude longitude with
    bits := 0, bitCount := 0,
    hash := w.hash ++ geohashChars (pending ++ [w.bit latitude longitude]) },
    ?_, ⟨rfl, rfl, by decide⟩, rfl, rfl⟩
  rw [next?, if_pos (by rw [h.bitCount_eq, hlength]), hbits, getElem?_geohashAlphabet hfive,
    geohashChars_five hfive]
  rfl

/-- A walk ends when its pending bits and those ahead fill the characters that are missing, and has
written these. -/
theorem ends_of_stands {precision n : Nat} (h : w.Stands pending)
    (hn : pending.length + n = 5 * (precision - w.hash.length)) :
    ∃ w', Ends latitude longitude precision n w w' ∧
      w'.hash = w.hash ++ geohashChars (pending ++ w.ahead latitude longitude n) := by
  induction n generalizing w pending with
  | zero =>
    have hlength := h.length_lt
    have hpending : pending = [] := List.eq_nil_of_length_eq_zero (by omega)
    have hnone : w.ahead latitude longitude 0 = [] := by
      unfold ahead
      split
      · rfl
      · rfl
    refine ⟨w, .stop (by omega), ?_⟩
    rw [hpending, hnone]
    exact (List.append_nil w.hash).symm
  | succ n ih =>
    have hshort : w.hash.length < precision := by omega
    have hlength := h.length_lt
    by_cases hfull : pending.length + 1 = 5
    · obtain ⟨w', hnext, hstands, hhash, hahead⟩ := h.next_full hfull
      have hwritten : w'.hash.length = w.hash.length + 1 := by
        rw [hhash, List.length_append, length_geohashChars (n := 1) (by simp [hfull])]
      obtain ⟨w'', hrest, hw''⟩ := ih hstands (by rw [hwritten, List.length_nil]; omega)
      refine ⟨w'', .step hshort hnext hrest, ?_⟩
      rw [hw'', hhash, hahead, ahead_succ, List.append_assoc, List.nil_append,
        ← geohashChars_append (n := 1) (by simp [hfull]), List.append_assoc, List.singleton_append]
    · obtain ⟨w', hnext, hstands, hhash, hahead⟩ := h.next_pending (by omega)
      obtain ⟨w'', hrest, hw''⟩ := ih hstands (by
        rw [hhash, List.length_append, List.length_singleton]
        omega)
      refine ⟨w'', .step hshort hnext hrest, ?_⟩
      rw [hw'', hhash, hahead, ahead_succ, List.append_assoc, List.singleton_append]

/-- The walk from the start ends after five steps for each character, at the hash. -/
theorem ends_start (latitude longitude : Double) (precision : Nat) :
    ∃ w, Ends latitude longitude precision (5 * precision) start w ∧
      w.hash = (geohash latitude longitude precision).toList := by
  have hwalk : ∃ w, Ends latitude longitude precision (5 * precision) start w ∧ w.hash =
      start.hash ++ geohashChars ([] ++ start.ahead latitude longitude (5 * precision)) :=
    ends_of_stands stands_start (by simp [start])
  obtain ⟨w, hends, hhash⟩ := hwalk
  refine ⟨w, hends, ?_⟩
  rw [hhash, geohash, String.toList_ofList]
  rfl

end Walk

/-! ## Hashes -/

/-- Whatever the numbers are, the walk for a hash ends with as many characters as asked for, all of
them from the alphabet, and these are the first ones of every longer hash of the point. -/
theorem geohash_nested (latitude longitude : Double) {p q : Nat} (h : p ≤ q) :
    (∃ w, Walk.Ends latitude longitude p (5 * p) .start w ∧
        w.hash = (geohash latitude longitude p).toList) ∧
      (geohash latitude longitude p).length = p ∧
      (∀ c ∈ (geohash latitude longitude p).toList, c ∈ geohashAlphabet) ∧
      (geohash latitude longitude p).toList <+: (geohash latitude longitude q).toList := by
  refine ⟨Walk.ends_start latitude longitude p, length_geohash latitude longitude p, ?_, ?_⟩
  · intro c hc
    rw [geohash, String.toList_ofList] at hc
    exact mem_geohashAlphabet hc
  · rw [geohash, geohash, String.toList_ofList, String.toList_ofList]
    obtain ⟨rest, hrest⟩ := geohashBits_prefix longitudes latitudes longitude latitude
      (Nat.mul_le_mul_left 5 h)
    rw [← hrest, geohashChars_append (length_geohashBits ..)]
    exact List.prefix_append ..

/-- A point that is nowhere has hashes as well: the longitude is always in the upper half, and the
latitude, which is no number, never. -/
theorem geohash_nested_nowhere :
    3 ≤ 255 ∧ geohash .nan (.infinity false) 3 = "pbp" ∧
      ['p', 'b', 'p'] <+: (geohash .nan (.infinity false) 255).toList := by
  have hhash : geohash .nan (.infinity false) 3 = "pbp" := by decide +kernel
  obtain ⟨-, -, -, hprefix⟩ := geohash_nested .nan (.infinity false) (p := 3) (q := 255) (by decide)
  rw [hhash] at hprefix
  exact ⟨by decide, hhash, hprefix⟩

end ColumnIndex.Geo
