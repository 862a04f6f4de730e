import ColumnIndex.Number.Binary.Arithmetic

/-!
# Geohashes

A geohash names a cell of a grid on the globe. The globe is halved again and again, first by
longitude, then by latitude, and so on in turn; each half taken gives a bit, and five bits give a
character. A longer hash of the same point names a cell inside the cell of a shorter one.

## Main definitions

* `isLatitude`, `isLongitude` — the ranges of coordinates.
* `geohashBits` — the halves taken on the way to a point.
* `geohash` — the hash of a point with as many characters as asked for.
-/
namespace ColumnIndex.Geo

/-- An interval of coordinates. -/
structure Interval where
  low : Double
  high : Double

/-- All latitudes. -/
def latitudes : Interval := ⟨.ofInt (-90), .ofInt 90⟩

/-- All longitudes. -/
def longitudes : Interval := ⟨.ofInt (-180), .ofInt 180⟩

/-- Whether the coordinate lies in the interval or on its ends. -/
def Interval.has (i : Interval) (x : Double) : Bool := i.low.le x && x.le i.high

/-- Whether the number is a latitude. -/
def isLatitude (x : Double) : Bool := latitudes.has x

/-- Whether the number is a longitude. -/
def isLongitude (x : Double) : Bool := longitudes.has x

/-- The middle of the interval. -/
def Interval.middle (i : Interval) : Double := (i.low.add i.high).div (.ofInt 2)

/-- Whether the coordinate lies in the upper half, to which the middle belongs. -/
def Interval.inUpper (i : Interval) (x : Double) : Bool := i.middle.le x

/-- The half of the interval that the coordinate lies in. -/
def Interval.half (i : Interval) (x : Double) : Interval :=
  if i.inUpper x then { i with low := i.middle } else { i with high := i.middle }

/-- The halves taken on the way to a point, so many of them. The first one halves the first
interval by the first coordinate, and then the two change places. -/
def geohashBits (first second : Interval) (x y : Double) : Nat → List Bool
  | 0 => []
  | n + 1 => first.inUpper x :: geohashBits second (first.half x) y x n

/-- The characters for the numbers below thirty-two. -/
def geohashAlphabet : List Char :=
  ['0', '1', '2', '3', '4', '5', '6', '7', '8', '9', 'b', 'c', 'd', 'e', 'f', 'g', 'h', 'j', 'k',
    'm', 'n', 'p', 'q', 'r', 's', 't', 'u', 'v', 'w', 'x', 'y', 'z']

/-- The number that bits spell, the first one counting most. -/
def numberOfBits (bits : List Bool) : Nat := bits.foldl (fun n b => 2 * n + b.toNat) 0

/-- A character for each five bits. -/
def geohashChars : List Bool → List Char
  | a :: b :: c :: d :: e :: rest =>
    geohashAlphabet.getD (numberOfBits [a, b, c, d, e]) '0' :: geohashChars rest
  | _ => []

/-- The hash of a point. -/
def geohash (latitude longitude : Double) (precision : Nat) : String :=
  String.ofList
    (geohashChars (geohashBits longitudes latitudes longitude latitude (5 * precision)))

end ColumnIndex.Geo
