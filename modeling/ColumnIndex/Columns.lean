import ColumnIndex.Entries
import ColumnIndex.Value

/-!
# Rows

A row gives values to column names. A name has one value: a value that comes later takes the
place of the earlier one.

## Main definitions

* `Columns` — a row.
* `Columns.insert` — one more value.
* `Columns.get?` — the value of a column.
* `Columns.ofList` — the row of a list of names with values.
-/
namespace ColumnIndex

/-- A row: columns with their values, in the order in which the columns came up first. -/
structure Columns where
  entries : List (String × Value)

namespace Columns

/-- The row without columns. -/
def empty : Columns := ⟨[]⟩

/-- The row with the value in the column. -/
def insert (row : Columns) (column : String) (value : Value) : Columns :=
  ⟨Entries.put column value row.entries⟩

/-- The value of the column, if the row has one. -/
def get? (row : Columns) (column : String) : Option Value := row.entries.lookup column

/-- How many columns there are. -/
def size (row : Columns) : Nat := row.entries.length

/-- Whether there is no column. -/
def isEmpty (row : Columns) : Bool := row.entries.isEmpty

/-- The names of the columns, in order. -/
def names (row : Columns) : List String := Entries.names row.entries

/-- The row that takes the values one after the other. -/
def ofList (cells : List (String × Value)) : Columns :=
  cells.foldl (fun row cell => row.insert cell.1 cell.2) empty

/-- The content of a column; a column that is not there is an empty cell. -/
def cell (row : Columns) (column : String) : Value := (row.get? column).getD .null

theorem get?_insert (row : Columns) (column other : String) (value : Value) :
    (row.insert column value).get? other =
      if other = column then some value else row.get? other :=
  Entries.lookup_put column other value row.entries

@[simp] theorem get?_empty (column : String) : empty.get? column = none := rfl

theorem names_insert (row : Columns) (column : String) (value : Value) :
    (row.insert column value).names =
      if column ∈ row.names then row.names else row.names ++ [column] :=
  Entries.names_put column value row.entries

theorem ofList_append_singleton (cells : List (String × Value)) (cell : String × Value) :
    ofList (cells ++ [cell]) = (ofList cells).insert cell.1 cell.2 := by
  rw [ofList, List.foldl_append]
  rfl

theorem get?_eq_none_iff {row : Columns} {column : String} :
    row.get? column = none ↔ column ∉ row.names :=
  Entries.lookup_eq_none_iff

@[simp] theorem length_names (row : Columns) : row.names.length = row.size :=
  List.length_map ..

end Columns

end ColumnIndex
