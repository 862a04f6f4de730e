/-!
# Runs of characters

A text falls apart into the longest runs of characters that have a property; what lies between
the runs is dropped. A character without the property is a clean cut: the runs of the two sides
do not depend on each other.
-/
namespace ColumnIndex.Text

variable (keep : Char → Bool)

/-- A run that has been read so far, in reverse; an empty one is no run. -/
def closeRun : List Char → List (List Char)
  | [] => []
  | c :: cs => [(c :: cs).reverse]

/-- The runs of a text whose first run continues the one read so far. -/
def runsFrom (current : List Char) : List Char → List (List Char)
  | [] => closeRun current
  | c :: cs =>
    if keep c then runsFrom (c :: current) cs else closeRun current ++ runsFrom [] cs

/-- The longest runs of characters with the property, in order; none of them is empty. -/
def runs (cs : List Char) : List (List Char) := runsFrom keep [] cs

variable {keep}

theorem runsFrom_append_cut {c : Char} (h : keep c = false) (a b current : List Char) :
    runsFrom keep current (a ++ c :: b) = runsFrom keep current a ++ runsFrom keep [] b := by
  induction a generalizing current with
  | nil => simp [runsFrom, h]
  | cons x xs ih => by_cases hx : keep x <;> simp [runsFrom, hx, ih]

/-- A character without the property separates the runs before it from those after it. -/
theorem runs_append_cut {c : Char} (h : keep c = false) (a b : List Char) :
    runs keep (a ++ c :: b) = runs keep a ++ runs keep b :=
  runsFrom_append_cut h a b []

end ColumnIndex.Text
