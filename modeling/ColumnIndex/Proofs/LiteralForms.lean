import ColumnIndex.Proofs.Number.Arithmetic
import ColumnIndex.Value.Literal

/-!
# Literals are fixed points

The literal of a value is what is read back from its JSON tree. What is of a kind that JSON has and
holds finite numbers only is its own literal, and nothing else is: every literal is of that form,
so taking the literal twice is taking it once.

## Main definitions

* `Value.IsLiteral` — the form of literals.

Main statement: `Value.literal_of_toJson`.
-/
namespace ColumnIndex.Value

mutual

/-- Whether the value is of a kind that JSON has, with finite numbers only. -/
def IsLiteral : Value → Prop
  | null | bool _ | long _ | text _ => True
  | double x => x.isFinite
  | list items => AreLiterals items
  | _ => False

/-- Whether all values are of kinds that JSON has, with finite numbers only. -/
def AreLiterals : List Value → Prop
  | [] => True
  | item :: items => IsLiteral item ∧ AreLiterals items

end

/-! ## Numbers of double precision -/

theorem isLiteral_doubleLiteral (x : Double) : (doubleLiteral x).IsLiteral := by
  unfold doubleLiteral
  split
  · assumption
  · trivial

theorem doubleLiteral_of_isFinite {x : Double} (hx : x.isFinite) : doubleLiteral x = double x :=
  if_pos hx

/-- A number has a JSON number exactly if its literal is one. -/
theorem ofJson?_doubleJson (x : Double) : ofJson? (doubleJson x) = some (doubleLiteral x) := by
  unfold doubleJson doubleLiteral
  split
  · rfl
  · rfl

/-! ## Values -/

mutual

theorem isLiteral_literal : ∀ v : Value, v.literal.IsLiteral
  | null | bool _ | int _ | long _ | text _ => trivial
  | float x => isLiteral_doubleLiteral x.widen
  | double x => isLiteral_doubleLiteral x
  | decimal _ | date _ | timestamp _ | blob _ | uuid _ | inet _ => trivial
  | list items => areLiterals_literals items

theorem areLiterals_literals : ∀ items : List Value, AreLiterals (literals items)
  | [] => trivial
  | item :: items => ⟨isLiteral_literal item, areLiterals_literals items⟩

end

mutual

theorem literal_eq_self : ∀ {v : Value}, v.IsLiteral → v.literal = v
  | null, _ | bool _, _ | long _, _ | text _, _ => rfl
  | double _, h => doubleLiteral_of_isFinite h
  | list _, h => congrArg list (literals_eq_self h)
  | int _, h | float _, h | decimal _, h | date _, h | timestamp _, h | blob _, h | uuid _, h
  | inet _, h => False.elim h

theorem literals_eq_self : ∀ {items : List Value}, AreLiterals items → literals items = items
  | [], _ => rfl
  | _ :: _, h => congrArg₂ List.cons (literal_eq_self h.1) (literals_eq_self h.2)

end

/-- The values of that form are those that are their own literals. -/
theorem isLiteral_iff {v : Value} : v.IsLiteral ↔ v.literal = v := by
  constructor
  · exact literal_eq_self
  · intro h
    rw [← h]
    exact isLiteral_literal v

mutual

/-- A literal equals itself, for what is no number is a text in it. -/
theorem same_self : ∀ {v : Value}, v.IsLiteral → v.same v
  | null, _ => rfl
  | bool _, _ | long _, _ | text _, _ => by simp [same]
  | double x, h => by
    have hx : x.isNaN = false := BinaryFloat.not_isNaN_of_isFinite h
    simp [same, BinaryFloat.same, hx]
  | list _, h => by
    rw [same]
    exact sameItems_self h
  | int _, h | float _, h | decimal _, h | date _, h | timestamp _, h | blob _, h | uuid _, h
  | inet _, h => False.elim h

theorem sameItems_self : ∀ {items : List Value}, AreLiterals items → sameItems items items
  | [], _ => rfl
  | _ :: _, h => by
    rw [sameItems, same_self h.1, sameItems_self h.2]
    rfl

end

mutual

/-- The JSON tree of a value is read as its literal. -/
theorem ofJson?_toJson : ∀ v : Value, ofJson? v.toJson = some v.literal
  | null | bool _ | text _ => rfl
  | int i => by
    have hlow := i.le_toInt
    have hhigh := i.toInt_lt
    have hrange : -2 ^ 63 ≤ i.toInt ∧ i.toInt < 2 ^ 63 := by omega
    rw [toJson, ofJson?, ofNumber, if_pos hrange, literal, ← Int32.toInt_toInt64,
      Int64.ofInt_toInt]
  | long i => by
    have hrange : -2 ^ 63 ≤ i.toInt ∧ i.toInt < 2 ^ 63 := ⟨i.le_toInt, i.toInt_lt⟩
    rw [toJson, ofJson?, ofNumber, if_pos hrange, literal, Int64.ofInt_toInt]
  | float x => ofJson?_doubleJson x.widen
  | double x => ofJson?_doubleJson x
  | decimal _ | date _ | timestamp _ | blob _ | uuid _ | inet _ => rfl
  | list items => by
    rw [toJson, ofJson?, itemsOfJson?_itemsToJson items]
    rfl

theorem itemsOfJson?_itemsToJson : ∀ items : List Value,
    itemsOfJson? (itemsToJson items) = some (literals items)
  | [] => rfl
  | item :: items => by
    rw [itemsToJson, itemsOfJson?, ofJson?_toJson item, itemsOfJson?_itemsToJson items]
    rfl

end

/-- The JSON tree of a value is read, and what is read equals the literal of the value. The literal
of a literal is the literal itself, so the values that are read back as they were are the
literals. -/
theorem literal_of_toJson (v : Value) :
    (ofJson? v.toJson = some v.literal ∧ v.literal.same v.literal) ∧
      (v.literal.IsLiteral ∧ v.literal.literal = v.literal) ∧
      (v.IsLiteral ↔ ofJson? v.toJson = some v) := by
  have hread := ofJson?_toJson v
  have hliteral := isLiteral_literal v
  refine ⟨⟨hread, same_self hliteral⟩, ⟨hliteral, literal_eq_self hliteral⟩, ?_⟩
  rw [hread, Option.some_inj, isLiteral_iff]

/-- Lists are opened at every depth, and infinity is a text in all of them. -/
example : (list [int 7, list [float (.infinity true), null]]).literal
    = list [long 7, list [text "-inf", null]] := rfl

end ColumnIndex.Value
