import ColumnIndex.Geo.Geohash

/-!
# Lengths of geohashes

A halving gives one bit, and five bits give one character, so a hash has the length that is asked
for, whatever the point.

Main statement: `Geo.length_geohash`.
-/
namespace ColumnIndex.Geo

theorem length_geohashBits (first second : Interval) (x y : Double) (n : Nat) :
    (geohashBits first second x y n).length = n := by
  induction n generalizing first second x y with
  | zero => rfl
  | succ n ih => rw [geohashBits, List.length_cons, ih]

theorem length_geohashChars {bits : List Bool} {n : Nat} (h : bits.length = 5 * n) :
    (geohashChars bits).length = n := by
  induction n generalizing bits with
  | zero =>
    rw [List.length_eq_zero_iff.1 h]
    rfl
  | succ n ih =>
    match bits, h with
    | a :: b :: c :: d :: e :: rest, h =>
      have hrest : rest.length = 5 * n := by
        simp only [List.length_cons] at h
        omega
      rw [geohashChars, List.length_cons, ih hrest]

/-- A geohash has as many characters as asked for. -/
theorem length_geohash (latitude longitude : Double) (precision : Nat) :
    (geohash latitude longitude precision).length = precision := by
  rw [geohash, String.length_ofList]
  exact length_geohashChars (length_geohashBits _ _ _ _ _)

example : geohash (.ofInt 42) (.ofInt (-5)) 5 = "ezkqy" := by decide +kernel

end ColumnIndex.Geo
