import ColumnIndex.Schema
import Mathlib.Data.List.Induction

/-!
# Positions of fields

A schema finds the mapper of a field at the position that its index has under the field. That is
the last position of a mapper for the field, so a lookup never leaves the mapper list, and where
fields are distinct it finds exactly the mappers of the list.

Main statements: `Schema.lookup_positionsOf_eq_some` and `Schema.mapper?_eq_some`.
-/
namespace ColumnIndex.Schema

variable {s : Schema} {ms : List Mapper} {field : String} {i : Nat} {m : Mapper}

@[simp] theorem mappers_ofMappers (analyzer : Analyzer) (ms : List Mapper) :
    (ofMappers analyzer ms).mappers = ms := rfl

/-- There is nothing to a schema but its analyzer and its mappers. -/
theorem ofMappers_eq (s : Schema) : ofMappers s.defaultAnalyzer s.mappers = s := by
  obtain ⟨analyzer, ms, -, rfl⟩ := s
  rfl

/-- One more mapper puts its position under its field. -/
theorem positionsOf_concat (ms : List Mapper) (m : Mapper) :
    positionsOf (ms ++ [m]) = Entries.put m.field ms.length (positionsOf ms) := by
  simp [positionsOf, List.zipIdx_append]

/-- What stands in a list with one more entry stood there before or is the new entry. -/
theorem getElem?_concat_eq_some {l : List String} {a b : String} :
    (l ++ [a])[i]? = some b ↔ l[i]? = some b ∨ i = l.length ∧ a = b := by
  grind

/-- Under a field is the last position of a mapper for it. -/
theorem lookup_positionsOf_eq_some :
    (positionsOf ms).lookup field = some i ↔
      (ms.map (·.field))[i]? = some field ∧
        ∀ j, (ms.map (·.field))[j]? = some field → j ≤ i := by
  -- The list grows at its end, where each position is behind the ones before.
  induction ms using List.reverseRecOn with
  | nil => simp [positionsOf]
  | append_singleton ms m ih =>
    have hbefore : ∀ j, (ms.map (·.field))[j]? = some field → j < ms.length := by
      intro j hj
      simpa using (List.getElem?_eq_some_iff.1 hj).1
    simp only [positionsOf_concat, Entries.lookup_put, List.map_append, List.map_cons,
      List.map_nil, getElem?_concat_eq_some, List.length_map]
    grind

/-- A lookup does not leave the list: at the position under a field is a mapper for it. -/
theorem getElem?_of_lookup (h : s.positions.lookup field = some i) :
    ∃ m, s.mappers[i]? = some m ∧ m.field = field := by
  rw [s.indexed, lookup_positionsOf_eq_some, List.getElem?_map, Option.map_eq_some_iff] at h
  exact h.1

theorem mapper?_eq_bind (s : Schema) (field : String) :
    s.mapper? field = (s.positions.lookup field).bind (s.mappers[·]?) := rfl

/-- What is found for a field is a mapper of the list for it. -/
theorem mem_of_mapper? (h : s.mapper? field = some m) : m ∈ s.mappers ∧ m.field = field := by
  rw [mapper?_eq_bind, Option.bind_eq_some_iff] at h
  obtain ⟨i, hi, hm⟩ := h
  obtain ⟨m', hm', hfield⟩ := getElem?_of_lookup hi
  obtain rfl : m' = m := Option.some_inj.1 (hm'.symm.trans hm)
  exact ⟨List.mem_of_getElem? hm, hfield⟩

/-- Where fields are distinct, each mapper has its position under its field. -/
theorem lookup_positions_eq_some (h : (s.mappers.map (·.field)).Nodup) :
    s.positions.lookup field = some i ↔ ∃ m, s.mappers[i]? = some m ∧ m.field = field := by
  refine ⟨getElem?_of_lookup, ?_⟩
  rw [← Option.map_eq_some_iff, ← List.getElem?_map, s.indexed, lookup_positionsOf_eq_some]
  intro hi
  refine ⟨hi, fun j hj => ?_⟩
  have hlength := (List.getElem?_eq_some_iff.1 hj).1
  exact Nat.le_of_eq ((List.getElem?_inj hlength h).1 (hj.trans hi.symm))

/-- Where fields are distinct, each field finds its own mapper. -/
theorem mapper?_eq_some (h : (s.mappers.map (·.field)).Nodup) :
    s.mapper? field = some m ↔ m ∈ s.mappers ∧ m.field = field := by
  refine ⟨mem_of_mapper?, ?_⟩
  rintro ⟨hm, hfield⟩
  obtain ⟨i, hi⟩ := List.mem_iff_getElem?.1 hm
  rw [mapper?_eq_bind, (lookup_positions_eq_some h).2 ⟨m, hi, hfield⟩, Option.bind_some, hi]

end ColumnIndex.Schema
