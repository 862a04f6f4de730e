import ColumnIndex.Proofs.MappedColumns

/-!
# Nested collections

Whether a mapper supports the type of a column hangs on what the cells hold once all collections
are opened, however many there are one in the other. On the way to a field at most one is opened,
and none for a coordinate. What is nested deeper is supported and cannot be written.

## Main definitions

* `ColumnType.Holds` — the cells of a type.
* `ColumnType.depth`, `Value.depth` — how many collections are one in the other.
* `Mapper.Accepts` — a row with cells of supported types, and no value in them that is rejected.
* `Mapper.OpensOnly` — which of these rows have fields.

Main statement: `Mapper.opensOnly_of_build`.
-/
namespace ColumnIndex

open Outcome

/-! ## Depth of types and of cells -/

/-- How many collections are to be opened before the single values. -/
def ColumnType.depth : ColumnType → Nat
  | scalar _ => 0
  | list inner | set inner => inner.depth + 1

namespace Value

mutual

/-- How many lists are one in the other. -/
def depth : Value → Nat
  | list items => itemDepth items + 1
  | _ => 0

/-- How many lists are one in the other in some item. -/
def itemDepth : List Value → Nat
  | [] => 0
  | item :: items => max (depth item) (itemDepth items)

end

mutual

/-- The single values of a cell, all lists opened. -/
def scalars : Value → List Value
  | list items => itemScalars items
  | v => [v]

/-- The single values of the items. -/
def itemScalars : List Value → List Value
  | [] => []
  | item :: items => scalars item ++ itemScalars items

end

variable {v : Value} {items : List Value}

theorem depth_eq_zero_iff : v.depth = 0 ↔ v.isList = false := by
  cases v <;> simp [depth, isList]

theorem itemDepth_le_iff {n : Nat} : itemDepth items ≤ n ↔ ∀ v ∈ items, v.depth ≤ n := by
  induction items with
  | nil => simp [itemDepth]
  | cons item items ih => rw [itemDepth, max_le_iff, ih, List.forall_mem_cons]

/-- A cell is at most one list exactly if no item of it is a list. -/
theorem depth_le_one_iff :
    v.depth ≤ 1 ↔ ¬∃ items, v = list items ∧ ∃ item ∈ items, item.isList := by
  cases v with
  | list items =>
    have hitems : itemDepth items ≤ 0 ↔ ∀ item ∈ items, item.isList = false :=
      itemDepth_le_iff.trans (forall₂_congr fun _ _ => Nat.le_zero.trans depth_eq_zero_iff)
    have hdepth : (list items).depth ≤ 1 ↔ itemDepth items ≤ 0 := by
      rw [depth]
      exact Nat.succ_le_succ_iff
    rw [hdepth, hitems]
    simp
  | _ => simp [depth]

theorem scalars_of_isList (h : v.isList = false) : v.scalars = [v] := by
  cases v <;> first | rfl | cases h

/-- An item that is no list is one of the single values. -/
theorem mem_scalars {cell : Value} (hv : v ∈ cell.elements) (h : v.isList = false) :
    v ∈ cell.scalars := by
  cases cell with
  | list items =>
    change v ∈ items at hv
    rw [scalars]
    induction items with
    | nil => cases hv
    | cons item items ih =>
      rw [itemScalars, List.mem_append]
      rcases List.mem_cons.1 hv with rfl | hv
      · rw [scalars_of_isList h]
        exact .inl (List.mem_singleton_self v)
      · exact .inr (ih hv)
  | _ => exact hv

end Value

/-! ## Cells of a type -/

namespace ColumnType

/-- A cell of the type: a list for each collection, and single values at the bottom. -/
def Holds : ColumnType → Value → Prop
  | scalar _, v => v.isList = false
  | list inner, v | set inner, v => ∃ items, v = .list items ∧ ∀ item ∈ items, inner.Holds item

/-- A cell that goes as deep as the type lets it, with as few single values as can be. -/
def hollow : ColumnType → Value
  | scalar _ => .int 0
  | list inner | set inner => .list (if inner.isCollection then [inner.hollow] else [])

variable {type : ColumnType} {v : Value}

theorem depth_eq_zero_iff : type.depth = 0 ↔ type.isCollection = false := by
  cases type <;> simp [depth, isCollection]

/-- Cells are no deeper than their type. -/
theorem depth_le_of_holds (h : type.Holds v) : v.depth ≤ type.depth := by
  induction type generalizing v with
  | scalar t =>
    rw [depth, Value.depth_eq_zero_iff.2 h]
  | list inner ih | set inner ih =>
    obtain ⟨items, rfl, hitems⟩ := h
    rw [Value.depth, depth, Nat.add_le_add_iff_right, Value.itemDepth_le_iff]
    exact fun item hitem => ih (hitems item hitem)

/-- The hollow cell is one of its type. -/
theorem holds_hollow (type : ColumnType) : type.Holds type.hollow := by
  induction type with
  | scalar t => rfl
  | list inner ih | set inner ih =>
    refine ⟨_, rfl, fun item hitem => ?_⟩
    split at hitem
    · exact List.mem_singleton.1 hitem ▸ ih
    · cases hitem

theorem depth_hollow (type : ColumnType) : type.hollow.depth = type.depth := by
  induction type with
  | scalar t => rfl
  | list inner ih | set inner ih =>
    rw [hollow, Value.depth, depth, Nat.add_right_cancel_iff]
    split
    · rw [Value.itemDepth, Value.itemDepth, ih, Nat.max_zero]
    · rename_i hinner
      rw [depth_eq_zero_iff.2 (Bool.eq_false_iff.2 hinner)]
      rfl

/-- There is no single value in it, unless it is one itself. -/
theorem scalars_hollow (type : ColumnType) :
    type.hollow.scalars = if type.isCollection then [] else [.int 0] := by
  induction type with
  | scalar t => rfl
  | list inner ih | set inner ih =>
    rw [hollow, Value.scalars, isCollection, if_pos rfl]
    split
    · rename_i hinner
      rw [Value.itemScalars, Value.itemScalars, ih, if_pos hinner]
      rfl
    · rfl

/-- A type with so many lists around it. -/
def nested (t : ScalarType) : Nat → ColumnType
  | 0 => scalar t
  | n + 1 => list (nested t n)

theorem depth_nested (t : ScalarType) (n : Nat) : (nested t n).depth = n := by
  induction n with
  | zero => rfl
  | succ n ih => rw [nested, depth, ih]

theorem element_nested (t : ScalarType) (n : Nat) : (nested t n).element = t := by
  induction n with
  | zero => rfl
  | succ n ih => rw [nested, element, ih]

end ColumnType

/-! ## Rows of cells -/

namespace Columns

/-- The row with a cell for each of the columns. -/
def filled (columns : List String) (content : String → Value) : Columns :=
  .ofList (columns.map fun column => (column, content column))

theorem get?_foldl_insert (cells : List (String × Value)) (row : Columns) {column : String}
    {v : Value} (h : ∀ cell ∈ cells, cell.1 = column → cell.2 = v)
    (hv : row.get? column = some v ∨ column ∈ cells.map (·.1)) :
    (cells.foldl (fun row cell => row.insert cell.1 cell.2) row).get? column = some v := by
  induction cells generalizing row with
  | nil => simpa using hv
  | cons cell cells ih =>
    rw [List.forall_mem_cons] at h
    refine ih (row.insert cell.1 cell.2) h.2 ?_
    rw [get?_insert]
    by_cases hcell : column = cell.1
    · rw [if_pos hcell, h.1 hcell.symm]
      exact .inl rfl
    · simpa [if_neg hcell, hcell] using hv

theorem cell_filled {columns : List String} (content : String → Value) {column : String}
    (h : column ∈ columns) : (filled columns content).cell column = content column := by
  have hget : (filled columns content).get? column = some (content column) := by
    refine get?_foldl_insert _ empty (fun cell hcell hname => ?_) (.inr ?_)
    · obtain ⟨c, -, rfl⟩ := List.mem_map.1 hcell
      exact congrArg content hname
    · simpa using h
  rw [cell, hget]
  rfl

end Columns

/-! ## Mappers -/

namespace Mapper

variable {m : Mapper} {types : String → ColumnType} {row : Columns}

/-- How many collections a mapper opens in a cell. -/
def opened (m : Mapper) : Nat := if m.tag.isSpatial then 0 else 1

/-- The cells that are read are of types that the mapper supports, no single value in them is
rejected, and no coordinate is missing. -/
structure Accepts (m : Mapper) (types : String → ColumnType) (row : Columns) : Prop where
  supported : ∀ column ∈ m.mappedColumns, m.supports (types column)
  shaped : ∀ column ∈ m.mappedColumns, (types column).Holds (row.cell column)
  accepted : ∀ column ∈ m.mappedColumns, ∀ v ∈ (row.cell column).scalars,
    ∃ base, (m.base column v).result = .ok base
  present : m.tag.isSpatial → ∀ column ∈ m.mappedColumns, (row.cell column).isNull = false

/-- Rows that should be accepted have fields exactly if their cells are not nested deeper than the
mapper opens them. Types promise as much only if they are not nested deeper, but types of any
depth are supported. -/
structure OpensOnly (m : Mapper) : Prop where
  rows : ∀ types row, m.Accepts types row →
    ((∃ fields, (m.fields row).result = .ok fields) ↔
      ∀ column ∈ m.mappedColumns, (row.cell column).depth ≤ m.opened)
  types : ∀ types : String → ColumnType,
    (∀ column ∈ m.mappedColumns, m.supports (types column)) →
      ((∀ row, m.Accepts types row → ∃ fields, (m.fields row).result = .ok fields) ↔
        ∀ column ∈ m.mappedColumns, (types column).depth ≤ m.opened)
  unbounded : ∀ depth, ∃ type, m.supports type ∧ type.depth = depth

/-- What is accepted is not rejected. -/
theorem Accepts.not_rejects (h : m.Accepts types row) {column : String}
    (hcolumn : column ∈ m.mappedColumns) {v : Value} (hv : v ∈ (row.cell column).elements) :
    ¬m.Rejects column v := by
  rintro ⟨hscalar, e, he⟩
  have hlist : v.isList = false := by
    rw [Value.isScalar, Bool.and_eq_true, Bool.not_eq_true', Bool.not_eq_true'] at hscalar
    exact hscalar.2
  obtain ⟨base, hbase⟩ := h.accepted column hcolumn v (Value.mem_scalars hv hlist)
  rw [hbase] at he
  cases he

/-- A list in a list is all that can be wrong with a cell. -/
theorem Accepts.refuses_iff_of_scalar (h : m.Accepts types row) (hm : m.tag.isSpatial = false) :
    m.Refuses row ↔ ¬(row.cell m.column).depth ≤ 1 := by
  have hcolumn : m.column ∈ m.mappedColumns := by
    rw [mappedColumns_scalar hm]
    exact List.mem_singleton_self _
  have hrejects : ¬∃ v ∈ (row.cell m.column).elements, m.Rejects m.column v := by
    rintro ⟨v, hv, hrejected⟩
    exact h.not_rejects hcolumn hv hrejected
  rw [refuses_scalar hm, Value.depth_le_one_iff, not_not]
  exact or_iff_right hrejects

/-- A list is all that can be wrong with a coordinate. -/
theorem Accepts.refuses_iff_of_point (h : m.Accepts types row) {latitude longitude : String}
    {levels : UInt8} (hkind : m.kind = .geoPoint latitude longitude levels) :
    m.Refuses row ↔ ∃ column ∈ m.mappedColumns, ¬(row.cell column).depth ≤ 0 := by
  have hm : m.tag.isSpatial := by
    rw [tag, hkind]
    rfl
  have hnull := h.present hm
  have hcell (column : String) (hcolumn : column ∈ m.mappedColumns) :
      m.Rejects column (row.cell column) ∨ (row.cell column).isList ↔
        ¬(row.cell column).depth ≤ 0 := by
    rw [Nat.le_zero, Value.depth_eq_zero_iff, Bool.not_eq_false]
    refine or_iff_right_of_imp fun hrejected => ?_
    by_contra hlist
    rw [Bool.not_eq_true] at hlist
    refine h.not_rejects hcolumn ?_ hrejected
    rw [Value.elements_of_isList hlist]
    exact List.mem_singleton_self _
  rw [mappedColumns_point hkind] at hnull hcell ⊢
  have hsame : ¬(row.cell latitude).isNull ≠ (row.cell longitude).isNull := by
    rw [hnull latitude (by simp), hnull longitude (by simp), not_not]
  have hrefuses : m.Refuses row ↔ ∃ column ∈ [latitude, longitude],
      m.Rejects column (row.cell column) ∨ (row.cell column).isList := by
    rw [Refuses, hkind]
    exact or_iff_left hsame
  rw [hrefuses]
  exact exists_congr fun column => and_congr_right (hcell column)

/-- Of such rows those are refused that have a cell nested deeper than the mapper opens it. -/
theorem Accepts.refuses_iff (h : m.Accepts types row) :
    m.Refuses row ↔ ∃ column ∈ m.mappedColumns, ¬(row.cell column).depth ≤ m.opened := by
  cases hm : m.tag.isSpatial with
  | false =>
    rw [h.refuses_iff_of_scalar hm, mappedColumns_scalar hm, opened, hm,
      if_neg Bool.false_ne_true]
    simp only [List.mem_singleton, exists_eq_left]
  | true =>
    obtain ⟨latitude, longitude, levels, hkind⟩ := exists_kind_of_isSpatial hm
    rw [h.refuses_iff_of_point hkind, opened, hm, if_pos rfl]

/-- Rows that should be accepted have fields exactly if no cell is nested too deep. -/
theorem Accepts.exists_fields_iff (h : m.Accepts types row) (hrow : m.Materializes row) :
    (∃ fields, (m.fields row).result = .ok fields) ↔
      ∀ column ∈ m.mappedColumns, (row.cell column).depth ≤ m.opened := by
  have hfields : (∃ fields, (m.fields row).result = .ok fields) ↔ ¬m.Refuses row := by
    rw [← hrow.refused]
    cases (m.fields row).result <;> simp
  rw [hfields, h.refuses_iff]
  simp only [not_exists, not_and, not_not]

/-! ## Types that promise too much -/

/-- Zero is a coordinate. -/
theorem exists_base_zero (hm : m.tag.isSpatial) (column : String) :
    ∃ base, (m.base column (.int 0)).result = .ok base := by
  obtain ⟨latitude, longitude, levels, hkind⟩ := exists_kind_of_isSpatial hm
  simp only [result_base_eq_ok, coerce, hkind]
  cases column == latitude
  · exact ⟨_, rfl⟩
  · exact ⟨_, rfl⟩

/-- Types that hold the same single values are supported alike. -/
theorem supports_congr {type other : ColumnType} (h : type.element = other.element) :
    m.supports type = m.supports other := by
  rw [supports, supports, MapperTag.supports.eq_def, MapperTag.supports.eq_def, h]

/-- Texts are supported in any number of lists. -/
theorem supports_nested (m : Mapper) (depth : Nat) : m.supports (.nested .text depth) := by
  have helement : (ColumnType.nested .text depth).element = (ColumnType.scalar .text).element :=
    ColumnType.element_nested _ _
  rw [supports_congr helement, supports]
  cases m.tag <;> rfl

/-- If the type of a column is nested too deep, the hollow cells should be accepted. -/
theorem accepts_hollow (htypes : ∀ column ∈ m.mappedColumns, m.supports (types column))
    {column : String} (hcolumn : column ∈ m.mappedColumns)
    (hdepth : ¬(types column).depth ≤ m.opened) :
    m.Accepts types (.filled m.mappedColumns fun column => (types column).hollow) where
  supported := htypes
  shaped c hc := by
    rw [Columns.cell_filled _ hc]
    exact ColumnType.holds_hollow _
  accepted c hc v hv := by
    rw [Columns.cell_filled _ hc, ColumnType.scalars_hollow] at hv
    split at hv
    · cases hv
    · rename_i hscalar
      rw [List.mem_singleton.1 hv]
      cases hm : m.tag.isSpatial with
      | true => exact exists_base_zero hm c
      | false =>
        -- the only column is the one of the type that is nested too deep
        rw [mappedColumns_scalar hm, List.mem_singleton] at hc hcolumn
        have hzero : (types column).depth = 0 := by
          rw [ColumnType.depth_eq_zero_iff, hcolumn, ← hc]
          exact Bool.eq_false_iff.2 hscalar
        rw [hzero] at hdepth
        exact absurd (Nat.zero_le _) hdepth
  present _ c hc := by
    rw [Columns.cell_filled _ hc]
    cases types c <;> rfl

/-- A built mapper opens one collection at most, whatever types it supports. -/
theorem opensOnly_of_build {d : Draft} {field : String} (h : d.build field = .ok m) :
    m.OpensOnly where
  rows types row hrow := hrow.exists_fields_iff (Draft.materializes_of_build h row)
  types types htypes := by
    constructor
    · intro hfields
      by_contra hdepth
      simp only [not_forall, exists_prop] at hdepth
      obtain ⟨column, hcolumn, hdeep⟩ := hdepth
      have haccepts := accepts_hollow htypes hcolumn hdeep
      have hcells :=
        (haccepts.exists_fields_iff (Draft.materializes_of_build h _)).1 (hfields _ haccepts)
      have hcell := hcells column hcolumn
      rw [Columns.cell_filled _ hcolumn, ColumnType.depth_hollow] at hcell
      exact hdeep hcell
    · intro hdepth row hrow
      rw [hrow.exists_fields_iff (Draft.materializes_of_build h row)]
      intro column hcolumn
      exact (ColumnType.depth_le_of_holds (hrow.shaped column hcolumn)).trans
        (hdepth column hcolumn)
  unbounded depth := ⟨.nested .text depth, m.supports_nested depth, ColumnType.depth_nested _ _⟩

/-- Years in a list are written. -/
theorem opensOnly_of_build_years : sampleYears.build "year" = .ok sampleYear ∧
    sampleYear.OpensOnly ∧ (sampleYear.fields sampleYearRow).result.isOk := by
  have h : sampleYears.build "year" = .ok sampleYear := rfl
  exact ⟨h, opensOnly_of_build h, rfl⟩

/-- The mapper of a draft of places. -/
def samplePlace : Mapper :=
  ⟨"place", "place", true, false, defaultBoost, .geoPoint "north" "east" 11⟩

/-- A year in a list in a list. -/
def sampleShelf : Columns := .ofList [("year", .list [.list [.int 1984]])]

/-- A place with each of its coordinates in a list. -/
def sampleStop : Columns := .ofList [("north", .list [.int 10]), ("east", .list [.int 20])]

/-- Years in lists of lists are supported and accepted, and so are coordinates in lists. Neither
are written. -/
theorem accepts_refused :
    (sampleYears.build "year" = .ok sampleYear ∧
      sampleYear.Accepts (fun _ => .list (.list (.scalar .int))) sampleShelf ∧
        ∃ e, (sampleYear.fields sampleShelf).result = .error e) ∧
    samplePlaces.build "place" = .ok samplePlace ∧
      samplePlace.Accepts (fun _ => .list (.scalar .double)) sampleStop ∧
        ∃ e, (samplePlace.fields sampleStop).result = .error e := by
  have hyear : sampleYear.mappedColumns = ["year"] := rfl
  have hshelf : sampleShelf.cell "year" = .list [.list [.int 1984]] := rfl
  have hplace : samplePlace.mappedColumns = ["north", "east"] := rfl
  have hnorth : sampleStop.cell "north" = .list [.int 10] := rfl
  have heast : sampleStop.cell "east" = .list [.int 20] := rfl
  refine ⟨⟨rfl, ?_, _, rfl⟩, rfl, ?_, _, rfl⟩
  · constructor
    · exact fun _ _ => rfl
    · simp [hyear, hshelf, ColumnType.Holds, Value.isList]
    · rw [hyear, List.forall_mem_singleton, hshelf]
      exact List.forall_mem_singleton.2 ⟨_, rfl⟩
    · intro hspatial
      cases hspatial
  · constructor
    · exact fun _ _ => rfl
    · simp [hplace, hnorth, heast, ColumnType.Holds, Value.isList]
    · rw [hplace, List.forall_mem_cons, List.forall_mem_singleton, hnorth, heast]
      exact ⟨List.forall_mem_singleton.2 ⟨_, rfl⟩, List.forall_mem_singleton.2 ⟨_, rfl⟩⟩
    · simp [hplace, hnorth, heast, Value.isNull]

end Mapper

end ColumnIndex
