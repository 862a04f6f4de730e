import ColumnIndex.Columns
import Mathlib.Data.Finset.Card
import Mathlib.Data.List.Induction

/-!
# Rows that are filled

A row is filled in steps. A value is inserted into it, or it is handed on with one more value, or
it gives way to a row that is collected from cells and starts from an empty one. What a row has got
since it was empty says all about it, whatever the steps were: its columns come in the order in
which they came first, each with the value that came last.

## Main definitions

* `Entries.ComesBefore` — which of two names comes up first.
* `Entries.IsLast` — the last value under a name.
* `Columns.Step` — what is done to a row.
* `Columns.run` — the row after steps.
* `Columns.given` — the cells that a row has got since it was empty.
* `Columns.Keeps` — the invariant: a row keeps what cells say.

Main statement: `Columns.run_keeps_given`.
-/
namespace ColumnIndex

/-! ## Entries that come one after the other -/

namespace Entries

variable {α : Type} {entries : List (String × α)} {name other : String} {value latest : α}

/-- The name comes up in the entries before the other one does. -/
def ComesBefore (entries : List (String × α)) (name other : String) : Prop :=
  (names entries).idxOf name < (names entries).idxOf other

/-- The value comes under the name, and none comes under it later. -/
def IsLast (entries : List (String × α)) (name : String) (value : α) : Prop :=
  ∃ before after, entries = before ++ (name, value) :: after ∧ name ∉ names after

theorem ComesBefore.ne (h : ComesBefore entries name other) : name ≠ other := by
  rintro rfl
  exact lt_irrefl _ h

/-- One more entry leaves the order of the names as it is. -/
theorem ComesBefore.append_singleton (h : ComesBefore entries name other)
    (hname : name ∈ names entries) (hother : other ∈ names entries) (entry : String × α) :
    ComesBefore (entries ++ [entry]) name other := by
  rwa [ComesBefore, names_append, List.idxOf_append_of_mem hname,
    List.idxOf_append_of_mem hother]

/-- A new name comes after all others. -/
theorem comesBefore_new {entry : String × α} (hname : name ∈ names entries)
    (hnew : entry.1 ∉ names entries) : ComesBefore (entries ++ [entry]) name entry.1 := by
  rw [ComesBefore, names_append, List.idxOf_append_of_mem hname,
    List.idxOf_append_of_notMem hnew, names_singleton, List.idxOf_cons_self, Nat.add_zero]
  exact List.idxOf_lt_length_of_mem hname

theorem isLast_nil : ¬IsLast [] name value := by
  rintro ⟨before, after, hentries, -⟩
  simp at hentries

/-- One more entry decides what is last under its name, and changes nothing under other names. -/
theorem isLast_append_singleton :
    IsLast (entries ++ [(name, latest)]) other value ↔
      if other = name then value = latest else IsLast entries other value := by
  constructor
  · rintro ⟨before, after, hentries, hafter⟩
    rcases List.eq_nil_or_concat after with rfl | ⟨front, entry, rfl⟩
    · obtain ⟨-, hentry⟩ := List.append_inj' hentries rfl
      cases hentry
      rw [if_pos rfl]
    · rw [List.concat_eq_append] at hentries hafter
      rw [← List.cons_append, ← List.append_assoc] at hentries
      obtain ⟨hfront, hentry⟩ := List.append_inj' hentries rfl
      cases hentry
      rw [names_append, names_singleton, List.mem_append, List.mem_singleton, not_or] at hafter
      rw [if_neg hafter.2]
      exact ⟨before, front, hfront, hafter.1⟩
  · split
    · rename_i hname
      rintro rfl
      exact ⟨entries, [], by rw [hname], List.not_mem_nil⟩
    · rename_i hname
      rintro ⟨before, after, rfl, hafter⟩
      refine ⟨before, after ++ [(name, latest)], by simp, ?_⟩
      rw [names_append, names_singleton, List.mem_append, List.mem_singleton, not_or]
      exact ⟨hafter, hname⟩

end Entries

namespace Columns

/-! ## Steps -/

/-- What is done to a row. -/
inductive Step
  /-- A value is inserted into the row. -/
  | insert (column : String) (value : Value)
  /-- The row is handed on with one more value. -/
  | extend (column : String) (value : Value)
  /-- The row gives way to one that is collected from cells. -/
  | collect (cells : List (String × Value))

/-- The row after a step. -/
def Step.apply (row : Columns) : Step → Columns
  | insert column value => row.insert column value
  | extend column value => row.insert column value
  | collect cells => ofList cells

/-- The cells that a row has got after a step, if it got the given ones before. -/
def Step.give (cells : List (String × Value)) : Step → List (String × Value)
  | insert column value => cells ++ [(column, value)]
  | extend column value => cells ++ [(column, value)]
  | collect collected => collected

/-- The row after steps, of which the first one is done to the empty row. -/
def run (steps : List Step) : Columns := steps.foldl Step.apply empty

/-- The cells that a row has got since it was empty. -/
def given (steps : List Step) : List (String × Value) := steps.foldl Step.give []

/-! ## The invariant -/

/-- The row has the columns that come up in the cells, in the order in which they come first, and
under each one the value that comes last. -/
structure Keeps (row : Columns) (cells : List (String × Value)) : Prop where
  mem_names (column : String) : column ∈ row.names ↔ column ∈ Entries.names cells
  ordered : row.names.Pairwise (Entries.ComesBefore cells)
  get? (column : String) (value : Value) :
    row.get? column = some value ↔ Entries.IsLast cells column value

namespace Keeps

variable {row : Columns} {cells : List (String × Value)}

theorem empty : Columns.empty.Keeps [] where
  mem_names _ := Iff.rfl
  ordered := .nil
  get? _ _ := iff_of_false nofun Entries.isLast_nil

theorem insert (h : row.Keeps cells) (column : String) (value : Value) :
    (row.insert column value).Keeps (cells ++ [(column, value)]) where
  mem_names other := by
    rw [names_insert, Entries.names_append, Entries.names_singleton, List.mem_append,
      List.mem_singleton, ← h.mem_names]
    split
    · rename_i hcolumn
      refine ⟨.inl, fun hother => hother.elim id ?_⟩
      rintro rfl
      exact hcolumn
    · rw [List.mem_append, List.mem_singleton]
  ordered := by
    have hkept : row.names.Pairwise (Entries.ComesBefore (cells ++ [(column, value)])) :=
      h.ordered.imp_of_mem fun hfirst hsecond hbefore =>
        hbefore.append_singleton ((h.mem_names _).1 hfirst) ((h.mem_names _).1 hsecond) _
    rw [names_insert]
    split
    · exact hkept
    · rename_i hnew
      rw [List.pairwise_append]
      refine ⟨hkept, List.pairwise_singleton _ _, fun first hfirst other hother => ?_⟩
      rw [List.mem_singleton.1 hother]
      exact Entries.comesBefore_new ((h.mem_names first).1 hfirst) fun hcolumn =>
        hnew ((h.mem_names column).2 hcolumn)
  get? other found := by
    rw [get?_insert, Entries.isLast_append_singleton]
    split
    · rw [Option.some_inj, eq_comm]
    · exact h.get? other found

theorem ofList (cells : List (String × Value)) : (Columns.ofList cells).Keeps cells := by
  induction cells using List.reverseRecOn with
  | nil => exact .empty
  | append_singleton cells cell ih =>
    rw [ofList_append_singleton]
    exact ih.insert cell.1 cell.2

/-- What one step preserves. -/
theorem apply (h : row.Keeps cells) (step : Step) : (step.apply row).Keeps (step.give cells) := by
  cases step with
  | insert column value => exact h.insert column value
  | extend column value => exact h.insert column value
  | collect collected => exact ofList collected

/-- What all steps preserve. -/
theorem foldl (h : row.Keeps cells) (steps : List Step) :
    (steps.foldl Step.apply row).Keeps (steps.foldl Step.give cells) := by
  induction steps generalizing row cells with
  | nil => exact h
  | cons step steps ih => exact ih (h.apply step)

theorem nodup (h : row.Keeps cells) : row.names.Nodup :=
  h.ordered.imp Entries.ComesBefore.ne

theorem size (h : row.Keeps cells) : row.size = (Entries.names cells).toFinset.card := by
  have hnames : row.names.toFinset = (Entries.names cells).toFinset := by
    ext column
    rw [List.mem_toFinset, List.mem_toFinset, h.mem_names]
  rw [← hnames, List.toFinset_card_of_nodup h.nodup, length_names]

theorem get?_eq_none_iff (h : row.Keeps cells) {column : String} :
    row.get? column = none ↔ column ∉ Entries.names cells := by
  rw [Columns.get?_eq_none_iff, h.mem_names]

theorem mem_entries_iff (h : row.Keeps cells) {column : String} {value : Value} :
    (column, value) ∈ row.entries ↔ row.get? column = some value :=
  (Entries.lookup_eq_some_iff h.nodup).symm

end Keeps

/-- After any steps a row has distinct columns, which are those that came since it was empty, in the
order in which each of them came first. The value of a column is the one that came last, and a
column that never came has none. The row is as large as there are distinct names among all that
came. One more value changes what is found in its own column only. -/
theorem run_keeps_given (steps : List Step) :
    (run steps).names.Nodup ∧
      (∀ column, column ∈ (run steps).names ↔ column ∈ Entries.names (given steps)) ∧
      (run steps).names.Pairwise (Entries.ComesBefore (given steps)) ∧
      (∀ column value, (column, value) ∈ (run steps).entries ↔
        (run steps).get? column = some value) ∧
      (∀ column value, (run steps).get? column = some value ↔
        Entries.IsLast (given steps) column value) ∧
      (∀ column, (run steps).get? column = none ↔ column ∉ Entries.names (given steps)) ∧
      (run steps).size = (Entries.names (given steps)).toFinset.card ∧
      ∀ column value other, ((run steps).insert column value).get? other =
        if other = column then some value else (run steps).get? other := by
  have h : (run steps).Keeps (given steps) := Keeps.empty.foldl steps
  exact ⟨h.nodup, h.mem_names, h.ordered, fun _ _ => h.mem_entries_iff, h.get?,
    fun _ => h.get?_eq_none_iff, h.size, fun _ _ _ => get?_insert ..⟩

-- A column that comes once more keeps its place, and what was there before a collect is gone.
example :
    (run [.insert "c" .null, .collect [("a", .int 1), ("b", .text "x")],
      .extend "a" (.int 2)]).entries = [("a", .int 2), ("b", .text "x")] := rfl

end Columns

end ColumnIndex
