/-!
# Sort descriptors

What the search engine receives about the order of the results: a field to sort by, how its
payloads compare, and whether the order is reversed.
-/
namespace ColumnIndex

/-- How the payloads of a field to sort by compare. -/
inductive SortKind
  | int
  | long
  | float
  | double
  | string
  deriving DecidableEq

/-- The name of a way to compare. -/
def SortKind.name : SortKind → String
  | int => "Int"
  | long => "Long"
  | float => "Float"
  | double => "Double"
  | string => "String"

/-- One criterion of the order of results. -/
structure SortField where
  field : String
  kind : SortKind
  reverse : Bool
  deriving DecidableEq

/-- The text of a criterion; a reversed one is marked. -/
def SortField.text (s : SortField) : String :=
  "<" ++ s.kind.name ++ ": \"" ++ s.field ++ "\">" ++ (if s.reverse then "!" else "")

end ColumnIndex
