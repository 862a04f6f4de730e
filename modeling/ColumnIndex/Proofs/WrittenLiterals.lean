import ColumnIndex.Proofs.Json.RereadNumbers

/-!
# Written literals are read back

A literal that was made from a value has the form that JSON has for it. What is written for it is
read back as an equal literal, if its fractional numbers are reproduced.

## Main definitions

* `Value.LiteralReproduced` — a literal that was made from a value, and whose numbers come back.
* `Value.Reproduced` — the same in terms of the literal alone.
* `Value.reread` — the value that is read where a literal was written.

Main statement: that value is read, and equals the literal.
-/
namespace ColumnIndex

namespace Value

mutual

/-- Whether all numbers of double precision in a value are reproduced. -/
def DoublesReproduced : Value → Prop
  | double x => x.Reproduced
  | list items => ItemsDoublesReproduced items
  | _ => True

/-- Whether all numbers of double precision in values are reproduced. -/
def ItemsDoublesReproduced : List Value → Prop
  | [] => True
  | item :: items => DoublesReproduced item ∧ ItemsDoublesReproduced items

end

/-- Whether the literal was made from a value, and its numbers are reproduced. -/
def LiteralReproduced (v : Value) : Prop := (∃ w : Value, w.literal = v) ∧ v.DoublesReproduced

mutual

/-- Whether the value is of the kinds of JSON, and its numbers are reproduced. -/
def Reproduced : Value → Prop
  | null | bool _ | long _ | text _ => True
  | double x => x.Reproduced
  | list items => ItemsReproduced items
  | _ => False

/-- Whether all values are of the kinds of JSON, and their numbers are reproduced. -/
def ItemsReproduced : List Value → Prop
  | [] => True
  | item :: items => Reproduced item ∧ ItemsReproduced items

end

theorem reproduced_doubleLiteral {x : Double} (h : (doubleLiteral x).DoublesReproduced) :
    (doubleLiteral x).Reproduced := by
  unfold doubleLiteral at h ⊢
  split_ifs at h ⊢ with hx
  · exact h
  · trivial

mutual

theorem reproduced_literal : ∀ {w : Value}, w.literal.DoublesReproduced → w.literal.Reproduced
  | .null, _ | .bool _, _ | .int _, _ | .long _, _ | .text _, _ => trivial
  | .float _, h | .double _, h => reproduced_doubleLiteral h
  | .decimal _, _ | .date _, _ | .timestamp _, _ | .blob _, _ | .uuid _, _ | .inet _, _ => trivial
  | .list _, h => itemsReproduced_literals h

theorem itemsReproduced_literals : ∀ {ws : List Value}, ItemsDoublesReproduced (literals ws) →
    ItemsReproduced (literals ws)
  | [], _ => trivial
  | _ :: _, h => ⟨reproduced_literal h.1, itemsReproduced_literals h.2⟩

end

theorem LiteralReproduced.reproduced {v : Value} (h : v.LiteralReproduced) : v.Reproduced := by
  obtain ⟨⟨w, rfl⟩, hnumbers⟩ := h
  exact reproduced_literal hnumbers

mutual

/-- The value that is read where a value was written. -/
def reread : Value → Value
  | double x => double x.reread
  | list items => list (rereadItems items)
  | v => v

/-- The values that are read where values were written. -/
def rereadItems : List Value → List Value
  | [] => []
  | item :: items => reread item :: rereadItems items

end

theorem written_double {x : Double} (h : x.Reproduced) :
    (double x).written = .number (.double x) := by
  rw [written, doubleJson, if_pos h.1]

theorem long_range (i : Int64) : -2 ^ 63 ≤ i.toInt ∧ i.toInt < 2 ^ 63 :=
  ⟨i.le_toInt, i.toInt_lt⟩

theorem legible_textJson (v : Value) : (textJson v).Legible := by
  unfold textJson
  split
  · trivial
  · trivial

theorem legible_doubleJson (x : Double) : (doubleJson x).Legible := by
  unfold doubleJson
  split
  · exact Json.Number.legible_double x
  · trivial

mutual

/-- Whatever is written for a value can be read as JSON. -/
theorem legible_written : ∀ v : Value, v.written.Legible
  | .null | .bool _ => trivial
  | .int i => by
    have hlow := i.le_toInt
    have hhigh := i.toInt_lt
    exact Json.Number.legible_whole (by omega) (by omega)
  | .long i => by
    have hi := long_range i
    exact Json.Number.legible_whole hi.1 (by omega)
  | .float x => by
    rw [written]
    split
    · exact Json.Number.legible_single x
    · trivial
  | .double x => legible_doubleJson x
  | .list items => itemsLegible_writtenItems items
  | .text _ | .decimal _ | .date _ | .timestamp _ | .blob _ | .uuid _ | .inet _ => by
    unfold written
    exact legible_textJson _

theorem itemsLegible_writtenItems : ∀ vs : List Value, Json.ItemsLegible (writtenItems vs)
  | [] => trivial
  | v :: vs => ⟨legible_written v, itemsLegible_writtenItems vs⟩

end

mutual

/-- A literal is read where it was written. -/
theorem ofJson?_reread : ∀ {v : Value}, v.Reproduced → ofJson? v.written.reread = some v.reread
  | .null, _ | .bool _, _ | .text _, _ => rfl
  | .long i, _ => by
    have hi := long_range i
    rw [written, Json.reread_whole hi.1 (by omega), ofJson?, ofNumber, if_pos hi, Int64.ofInt_toInt]
    rfl
  | .double x, h => by
    rw [written_double h, Double.Reproduced.reread_number h]
    rfl
  | .list items, h => by
    rw [written, Json.reread, ofJson?, itemsOfJson?_reread h]
    rfl
  | .int _, h | .float _, h | .decimal _, h | .date _, h | .timestamp _, h | .blob _, h
  | .uuid _, h | .inet _, h => False.elim h

theorem itemsOfJson?_reread : ∀ {vs : List Value}, ItemsReproduced vs →
    itemsOfJson? (Json.rereadItems (writtenItems vs)) = some (rereadItems vs)
  | [], _ => rfl
  | v :: vs, h => by
    rw [writtenItems, Json.rereadItems, itemsOfJson?, ofJson?_reread h.1, itemsOfJson?_reread h.2]
    rfl

end

mutual

theorem same_reread : ∀ {v : Value}, v.Reproduced → v.same v.reread
  | .null, _ => rfl
  | .bool b, _ => by simp [reread, same]
  | .text s, _ => by simp [reread, same]
  | .long i, _ => by simp [reread, same]
  | .double x, h => by
    rw [reread, same]
    exact Double.Reproduced.same_reread h
  | .list items, h => by
    rw [reread, same]
    exact sameItems_rereadItems h
  | .int _, h | .float _, h | .decimal _, h | .date _, h | .timestamp _, h | .blob _, h
  | .uuid _, h | .inet _, h => False.elim h

theorem sameItems_rereadItems : ∀ {vs : List Value}, ItemsReproduced vs →
    sameItems vs (rereadItems vs)
  | [], _ => rfl
  | v :: vs, h => by
    rw [rereadItems, sameItems, same_reread h.1, sameItems_rereadItems h.2]
    rfl

end

theorem reread_ne_null {v : Value} (h : v.Reproduced) (hv : v ≠ .null) :
    v.written.reread ≠ .null := by
  intro hnull
  have hread := ofJson?_reread h
  rw [hnull] at hread
  cases v with
  | null => exact hv rfl
  | _ => cases hread

end Value

namespace Wire

theorem readLiteral_reread {v : Value} (h : v.Reproduced) :
    readLiteral v.written.reread = .ok v.reread := by
  rw [readLiteral, Value.ofJson?_reread h]

theorem readLiterals_reread {vs : List Value} (h : Value.ItemsReproduced vs) :
    readLiterals (Json.list (Value.writtenItems vs)).reread = .ok (Value.rereadItems vs) := by
  rw [Json.reread, readLiterals, readList]
  change (Json.rereadItems (Value.writtenItems vs)).mapM readLiteral = _
  induction vs with
  | nil => rfl
  | cons v vs ih =>
    rw [Value.writtenItems, Json.rereadItems, List.mapM_cons, readLiteral_reread h.1, ih h.2]
    rfl

end Wire

end ColumnIndex
