import ColumnIndex.Metrics.Counters
import ColumnIndex.Proofs.FieldTypes

/-!
# Columns that are read

The columns of a mapper are listed apart from the code that takes values from a row. The list is
exact: rows that agree on the listed columns are written alike, whatever else stands in them, and
for each listed column there are rows that differ in nothing else and are not written alike.

## Main definitions

* `Columns.AgreeOn` — rows with the same values in some columns.
* `Mapper.Reads` — whether a column makes a difference to a mapper.
* `Schema.columnUses` — the columns of all mappers, each as often as it is used.

Main statement: `Schema.document_determined`.
-/
namespace ColumnIndex

open Outcome

/-! ## Rows that agree -/

/-- Both rows have the same values in the columns. -/
def Columns.AgreeOn (columns : List String) (row other : Columns) : Prop :=
  ∀ column ∈ columns, row.get? column = other.get? column

namespace Columns.AgreeOn

variable {columns : List String} {row other : Columns}

theorem cell (h : AgreeOn columns row other) {column : String} (hcolumn : column ∈ columns) :
    row.cell column = other.cell column := by
  rw [Columns.cell, Columns.cell, h column hcolumn]

theorem mono (h : AgreeOn columns row other) {fewer : List String} (hfewer : fewer ⊆ columns) :
    AgreeOn fewer row other :=
  fun column hcolumn => h column (hfewer hcolumn)

end Columns.AgreeOn

/-! ## Mappers -/

namespace Mapper

variable {m : Mapper} {row other : Columns} {column : String}

theorem mappedColumns_scalar (hm : m.tag.isSpatial = false) : m.mappedColumns = [m.column] := by
  unfold mappedColumns
  split
  · rename_i hkind
    exact absurd hkind (kind_ne_of_isSpatial hm _ _ _)
  · rfl

theorem mappedColumns_point {latitude longitude : String} {levels : UInt8}
    (hkind : m.kind = .geoPoint latitude longitude levels) :
    m.mappedColumns = [latitude, longitude] := by
  simp only [mappedColumns, hkind]

/-- The fields of a row hang on the columns of the mapper alone. -/
theorem materialize_congr (h : Columns.AgreeOn m.mappedColumns row other) :
    m.materialize row = m.materialize other := by
  cases hm : m.tag.isSpatial with
  | false =>
    rw [mappedColumns_scalar hm] at h
    have hcell := h.cell (List.mem_singleton_self m.column)
    rw [materialize_of_isSpatial hm, materialize_of_isSpatial hm, hcell]
  | true =>
    obtain ⟨latitude, longitude, levels, hkind⟩ := exists_kind_of_isSpatial hm
    rw [mappedColumns_point hkind] at h
    have hlatitude : row.cell latitude = other.cell latitude := h.cell (by simp)
    have hlongitude : row.cell longitude = other.cell longitude := h.cell (by simp)
    rw [materialize_point hkind, materialize_point hkind, point, point, hlatitude, hlongitude]

/-- So do the events. -/
theorem fields_congr (h : Columns.AgreeOn m.mappedColumns row other) :
    m.fields row = m.fields other := by
  rw [fields, fields, materialize_congr h]

/-- The column makes a difference: there are rows that differ in nothing else, and the mapper does
not make the same of them. -/
def Reads (m : Mapper) (column : String) : Prop :=
  ∃ row other : Columns, (∀ c, c ≠ column → row.get? c = other.get? c) ∧
    m.fields row ≠ m.fields other

/-- A row without columns has no fields. -/
theorem materialize_empty (m : Mapper) : m.materialize .empty = .ok [] := by
  cases hm : m.tag.isSpatial with
  | false =>
    rw [materialize_of_isSpatial hm]
    rfl
  | true =>
    obtain ⟨latitude, longitude, levels, hkind⟩ := exists_kind_of_isSpatial hm
    rw [materialize_point hkind]
    rfl

/-- A list in a list is refused in any column that is read. -/
theorem exists_materialize_error (hcolumn : column ∈ m.mappedColumns)
    (hcell : row.cell column = .list [.list []]) : ∃ fault, m.materialize row = .error fault := by
  cases hm : m.tag.isSpatial with
  | false =>
    rw [mappedColumns_scalar hm, List.mem_singleton] at hcolumn
    subst hcolumn
    obtain ⟨fault, hfault⟩ : ∃ fault, m.coerceAll m.column (row.cell m.column) = .error fault :=
      exists_coerceAll_error_iff.2 (.inr ⟨_, hcell, .list [], List.mem_singleton_self _, rfl⟩)
    refine ⟨fault, ?_⟩
    rw [materialize_of_isSpatial hm]
    exact bind_eq_error.2 (.inl hfault)
  | true =>
    obtain ⟨latitude, longitude, levels, hkind⟩ := exists_kind_of_isSpatial hm
    rw [mappedColumns_point hkind] at hcolumn
    have hrefused : ∃ fault, m.coerce column (row.cell column) = .error fault := by
      rw [hcell]
      exact exists_coerce_error_iff.2 (.inr rfl)
    obtain ⟨fault, hfault⟩ := (exists_point_error_iff hkind).2 (.inl ⟨column, hcolumn, hrefused⟩)
    refine ⟨fault, ?_⟩
    rw [materialize_point hkind, map_eq_error]
    exact hfault

/-- A mapper reads its columns and no others. -/
theorem reads_iff : m.Reads column ↔ column ∈ m.mappedColumns := by
  constructor
  · rintro ⟨row, other, hother, hfields⟩
    by_contra hcolumn
    refine hfields (fields_congr fun c hc => hother c ?_)
    rintro rfl
    exact hcolumn hc
  · intro hcolumn
    let other := Columns.empty.insert column (.list [.list []])
    have hget (c : String) : other.get? c =
        if c = column then some (.list [.list []]) else Columns.empty.get? c :=
      Columns.get?_insert _ _ _ _
    have hcell : other.cell column = .list [.list []] := by
      rw [Columns.cell, hget, if_pos rfl]
      rfl
    obtain ⟨e, he⟩ := exists_fields_error_iff.2 (exists_materialize_error hcolumn hcell)
    refine ⟨.empty, other, fun c hc => ?_, fun hfields => ?_⟩
    · rw [hget, if_neg hc]
    · rw [← hfields, result_fields_eq_ok.2 m.materialize_empty] at he
      cases he

end Mapper

/-! ## Items without repetition -/

section Repetition

variable {α : Type} [BEq α] [LawfulBEq α] {a b : α}

/-- Items that are taken out change nothing in the order of first places of the others. -/
theorem idxOf_lt_of_filter {p : α → Bool} {l : List α} (ha : p a) (hb : p b)
    (h : (l.filter p).idxOf a < (l.filter p).idxOf b) : l.idxOf a < l.idxOf b := by
  induction l with
  | nil => cases h
  | cons c l ih =>
    by_cases hc : p c
    · rw [List.filter_cons_of_pos hc, List.idxOf_cons, List.idxOf_cons] at h
      rw [List.idxOf_cons, List.idxOf_cons]
      grind
    · have hca : (c == a) = false := beq_false_of_ne fun h => hc (h ▸ ha)
      have hcb : (c == b) = false := beq_false_of_ne fun h => hc (h ▸ hb)
      rw [List.filter_cons_of_neg hc] at h
      simpa [List.idxOf_cons, hca, hcb] using ih h

/-- Without repetition items stand in the order of their first places. -/
theorem pairwise_eraseDups : ∀ l : List α,
    l.eraseDups.Pairwise fun a b => l.idxOf a < l.idxOf b
  | [] => by simp
  | c :: l => by
    have hlater : ∀ b ∈ (l.filter fun b => !b == c).eraseDups, b ≠ c := by
      intro b hb
      rw [List.mem_eraseDups, List.mem_filter] at hb
      simpa using hb.2
    have hplace : ∀ b, b ≠ c → (c :: l).idxOf b = l.idxOf b + 1 := by
      intro b hb
      rw [List.idxOf_cons, beq_false_of_ne hb.symm]
      rfl
    rw [List.eraseDups_cons, List.pairwise_cons]
    refine ⟨fun b hb => ?_, ?_⟩
    · rw [List.idxOf_cons_self, hplace b (hlater b hb)]
      exact Nat.succ_pos _
    · refine (pairwise_eraseDups (l.filter fun b => !b == c)).imp_of_mem ?_
      intro a b ha hb h
      have hlt : l.idxOf a < l.idxOf b :=
        idxOf_lt_of_filter (by simpa using hlater a ha) (by simpa using hlater b hb) h
      rw [hplace a (hlater a ha), hplace b (hlater b hb)]
      exact Nat.succ_lt_succ hlt
termination_by l => l.length
decreasing_by exact Nat.lt_succ_of_le (List.length_filter_le _ _)

end Repetition

/-! ## Schemas -/

namespace Schema

variable {s : Schema} {row other : Columns}

/-- The columns of the mappers in the order in which these were declared, each as often as it is
used. -/
def columnUses (s : Schema) : List String := s.mappers.flatMap Mapper.mappedColumns

/-- Mappers that each make the same of two rows do so together. -/
theorem fieldsOf_congr {ms : List Mapper} (h : ∀ m ∈ ms, m.fields row = m.fields other) :
    fieldsOf row ms = fieldsOf other ms := by
  induction ms with
  | nil => rfl
  | cons m ms ih =>
    rw [List.forall_mem_cons] at h
    rw [fieldsOf, fieldsOf, h.1, ih h.2]

theorem mem_mappedColumns {column : String} :
    column ∈ s.mappedColumns ↔ ∃ m ∈ s.mappers, column ∈ m.mappedColumns := by
  rw [mappedColumns, List.mem_eraseDups, List.mem_flatMap]

/-- Rows that agree on the columns of a schema have the same document, and cause the same events. -/
theorem document_congr (h : Columns.AgreeOn s.mappedColumns row other) :
    s.document row = s.document other := by
  have hfields : fieldsOf row s.mappers = fieldsOf other s.mappers := by
    refine fieldsOf_congr fun m hm => Mapper.fields_congr (h.mono fun column hcolumn => ?_)
    exact mem_mappedColumns.2 ⟨m, hm, hcolumn⟩
  rw [document, document, hfields]

/-- The document of a row and what is counted for it hang on the columns of the schema alone. These
are the columns that some mapper reads, each once, in the order of their first use. -/
theorem document_determined (s : Schema) :
    (∀ row other, Columns.AgreeOn s.mappedColumns row other →
      (s.document row).result = (s.document other).result ∧
        ∀ c : Counters, c.countAll (s.document row).events = c.countAll (s.document other).events) ∧
      s.mappedColumns.Nodup ∧
      (∀ column, column ∈ s.mappedColumns ↔ ∃ m ∈ s.mappers, m.Reads column) ∧
      s.mappedColumns.Pairwise fun a b => s.columnUses.idxOf a < s.columnUses.idxOf b := by
  have hfirst : s.mappedColumns.Pairwise fun a b => s.columnUses.idxOf a < s.columnUses.idxOf b :=
    pairwise_eraseDups s.columnUses
  refine ⟨fun row other h => ?_, ?_, fun column => ?_, hfirst⟩
  · rw [document_congr h]
    exact ⟨rfl, fun _ => rfl⟩
  · refine hfirst.imp fun hlt heq => ?_
    rw [heq] at hlt
    exact absurd hlt (lt_irrefl _)
  · simp only [mem_mappedColumns, Mapper.reads_iff]

/-- A row with a year behind a column that is not read. -/
def sampleRow : Columns := .ofList [("note", .text "lent"), ("year", .long 1984)]

/-- A row with the same year in front of another column that is not read. -/
def sampleOther : Columns := .ofList [("year", .long 1984), ("shelf", .list [.list []])]

/-- The rows have the same document, for only four columns are read. -/
theorem document_determined_sample :
    Columns.AgreeOn sampleTyped.mappedColumns sampleRow sampleOther ∧
      (sampleTyped.document sampleRow).result = (sampleTyped.document sampleOther).result ∧
      sampleTyped.mappedColumns = ["title", "year", "north", "east"] := by
  have hcolumns : sampleTyped.mappedColumns = ["title", "year", "north", "east"] := by
    simp [mappedColumns, sampleTyped, Mapper.mappedColumns, List.eraseDups_cons]
  have hagree : Columns.AgreeOn sampleTyped.mappedColumns sampleRow sampleOther := by
    rw [hcolumns]
    simp only [Columns.AgreeOn, List.forall_mem_cons]
    exact ⟨rfl, rfl, rfl, rfl, List.forall_mem_nil _⟩
  exact ⟨hagree, ((document_determined sampleTyped).1 _ _ hagree).1, hcolumns⟩

end Schema

end ColumnIndex
