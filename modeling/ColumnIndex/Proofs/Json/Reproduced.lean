import ColumnIndex.Proofs.Json.TreeScan
import ColumnIndex.Wire.Attribute

/-!
# Numbers that are reproduced

A whole number of sixty-four bits is read as it was written. Of a number that is not whole this is
not so in general: the shortest digits are read with a rounding of their own. So it is a condition
on a number that it comes back, and it can be checked on the number alone.

## Main definitions

* `Double.Reproduced`, `Single.Reproduced` — whether the number that is read equals the written
  one.
* `Double.reread`, `Single.reread` — the number that is read.

Main statement: the readers of attributes give back what was written.
-/
namespace ColumnIndex

/-- What is read where the number was written, if that is a number. -/
def Double.reread (x : Double) : Double :=
  match (Json.Number.double x).reread with
  | .number (.double y) => y
  | _ => x

/-- What is read where the number was written, if that is a number. -/
def Single.reread (x : Single) : Single :=
  match (Json.Number.single x).reread with
  | .number (.double y) => y.convert
  | _ => x

/-- The number is finite, and an equal one is read from the text of the number alone. -/
def Double.Reproduced (x : Double) : Prop :=
  x.isFinite ∧ ∃ y : Double,
    Json.parse (Json.number (.double x)).compact = .ok (.number (.double y)) ∧ x.same y

/-- The number is finite, and from the text of the number alone one is read that equals it in
single precision. -/
def Single.Reproduced (x : Single) : Prop :=
  x.isFinite ∧ ∃ y : Double,
    Json.parse (Json.number (.single x)).compact = .ok (.number (.double y)) ∧ x.same y.convert

namespace Json

/-- A number alone is read where the number was written in a tree. -/
theorem Number.tokens_of_parse {n m : Number}
    (h : parse (number n).compact = .ok (.number m)) :
    tokens n.chars = [.plain (.ok (.number m))] := by
  have htokens := tokens_of_parse_eq_number h
  rwa [compact, String.toList_ofList] at htokens

/-- A number that is read where it was written is read from its text alone. -/
theorem parse_of_tokens {n m : Number} (h : tokens n.chars = [.plain (.ok (.number m))]) :
    parse (number n).compact = .ok (.number m) := by
  have hdepth : (number n).depth ≤ maxDepth := Nat.zero_le _
  rw [parse_compact (j := number n) (Number.legible_of_tokens h), if_pos hdepth, Json.reread,
    Number.reread_of_tokens h]

/-- A whole number of sixty-four bits is read as it was written. -/
theorem Number.tokens_whole {i : Int} (hlow : -2 ^ 63 ≤ i) (hhigh : i < 2 ^ 64) :
    tokens (Number.whole i).chars = [.plain (.ok (.number (.whole i)))] :=
  tokens_intChars hlow hhigh

theorem Number.legible_whole {i : Int} (hlow : -2 ^ 63 ≤ i) (hhigh : i < 2 ^ 64) :
    (Number.whole i).Legible :=
  legible_of_tokens (tokens_whole hlow hhigh)

theorem reread_whole {i : Int} (hlow : -2 ^ 63 ≤ i) (hhigh : i < 2 ^ 64) :
    (number (.whole i)).reread = .number (.whole i) :=
  Number.reread_of_tokens (Number.tokens_whole hlow hhigh)

end Json

namespace Double.Reproduced

variable {x : Double} (h : x.Reproduced)
include h

theorem reread_number : (Json.number (.double x)).reread = .number (.double x.reread) := by
  obtain ⟨-, y, hy, -⟩ := h
  have hreread := Json.Number.reread_of_tokens (Json.Number.tokens_of_parse hy)
  rw [Json.reread, Double.reread, hreread]

theorem same_reread : x.same x.reread := by
  obtain ⟨-, y, hy, hsame⟩ := h
  rw [Double.reread, Json.Number.reread_of_tokens (Json.Number.tokens_of_parse hy)]
  exact hsame

end Double.Reproduced

namespace Single.Reproduced

variable {x : Single} (h : x.Reproduced)
include h

theorem exists_reread_number :
    ∃ y : Double, (Json.number (.single x)).reread = .number (.double y) ∧
      y.convert = x.reread := by
  obtain ⟨-, y, hy, -⟩ := h
  have hreread := Json.Number.reread_of_tokens (Json.Number.tokens_of_parse hy)
  refine ⟨y, hreread, ?_⟩
  rw [Single.reread, hreread]

theorem same_reread : x.same x.reread := by
  obtain ⟨-, y, hy, hsame⟩ := h
  rw [Single.reread, Json.Number.reread_of_tokens (Json.Number.tokens_of_parse hy)]
  exact hsame

end Single.Reproduced

/-! ## Readers of numbers -/

namespace Wire

theorem readDouble_reread {x : Double} (h : x.Reproduced) :
    readDouble (doubleJson x).reread = .ok x.reread := by
  rw [doubleJson, h.reread_number, readDouble]

theorem readSingle_reread {x : Single} (h : x.Reproduced) :
    readSingle (singleJson x).reread = .ok x.reread := by
  obtain ⟨y, hy, hx⟩ := h.exists_reread_number
  rw [singleJson, hy, readSingle, hx]

theorem readNat_reread {limit n : Nat} (wanted : String) (h : n < limit) (hlimit : n < 2 ^ 64) :
    readNat limit wanted (natJson n).reread = .ok n := by
  rw [natJson, Json.reread_whole (by omega) (by omega), readNat, if_pos (by omega),
    Int.toNat_natCast]

theorem readByte_reread (n : UInt8) : readByte (natJson n.toNat).reread = .ok n := by
  have hn : n.toNat < 2 ^ 8 := n.toNat_lt
  rw [readByte, readNat_reread "u8" hn (by omega), Except.map, UInt8.ofNat_toNat]

theorem readWord_reread (n : UInt32) : readWord (natJson n.toNat).reread = .ok n := by
  have hn : n.toNat < 2 ^ 32 := n.toNat_lt
  rw [readWord, readNat_reread "u32" hn (by omega), Except.map, UInt32.ofNat_toNat]

theorem legible_natJson {n : Nat} (h : n < 2 ^ 64) : (natJson n).Legible :=
  Json.Number.legible_whole (by omega) (by omega)

end Wire

end ColumnIndex
