import ColumnIndex.Mapper.Coercion

/-!
# Faults of compilation

A condition or a criterion that is meaningful by itself may still not fit the schema it is compiled
against. A fault says why.
-/
namespace ColumnIndex

/-- Why something does not fit a schema. -/
inductive CompileFault
  | fieldNotFound (field : String)
  | notSorted (field : String)
  /-- Conditions of a kind do not apply to the mapper of the field. -/
  | unsupported (condition : String) (mapper : MapperTag) (field : String)
  | nullLiteral (field : String)
  /-- The mapper rejects a literal. -/
  | badLiteral (field : String) (fault : CoercionFault)

/-- The wording of a fault. -/
def CompileFault.message : CompileFault → String
  | fieldNotFound field => "field '" ++ field ++ "' not found in schema"
  | notSorted field => "field '" ++ field ++ "' is not sorted"
  | unsupported condition mapper field =>
    condition ++ " conditions are not supported by '" ++ mapper.name ++ "' field '" ++ field ++ "'"
  | nullLiteral field => "condition value for field '" ++ field ++ "' must not be null"
  | badLiteral field fault => "invalid value for field '" ++ field ++ "': " ++ fault.message

instance : Reported CompileFault where
  report fault := ⟨.compilation, .query, fault.message⟩

end ColumnIndex
