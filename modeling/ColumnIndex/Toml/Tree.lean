import ColumnIndex.Entries
import ColumnIndex.Number.Binary

/-!
# TOML trees

The tree of a TOML document grows line by line. What a later line may add to a table depends on
how the table came about, so the table keeps that.

## Main definitions

* `Toml` — the values.
* `Toml.TableOrigin` — how a table came about.
* `Toml.assign` — one more key with its value.
* `Toml.openTable`, `Toml.openEntry` — one more header of a table, or of an entry of an array of
  tables.
-/
namespace ColumnIndex

/-- How a table came about. -/
inductive Toml.TableOrigin
  /-- By a header of its own; the whole document counts as such a table. -/
  | header
  /-- By a header of a table inside it. -/
  | implied
  /-- By a dotted key. -/
  | dotted
  /-- Between braces. -/
  | inline
  deriving DecidableEq

/-- A TOML value. -/
inductive Toml
  | text (s : String)
  | integer (i : Int)
  | float (x : Double)
  | boolean (b : Bool)
  /-- A date, a time of day, or both. -/
  | moment
  /-- A number beyond the range of every type of numbers. -/
  | tooLarge
  | array (items : List Toml)
  | table (origin : Toml.TableOrigin) (members : List (String × Toml))
  /-- An array of tables: its last entry, and those before it from the last to the first. -/
  | tables (last : List (String × Toml)) (before : List (List (String × Toml)))

namespace Toml

/-- The keys of a table with their values. -/
abbrev Members := List (String × Toml)

/-- Changes the table at the end of a path that starts in a table with the given origin and
members. Tables that are missing on the way come into being. A dotted key leads only through
tables without a header of their own; nothing leads into a table between braces. -/
def within (dotted : Bool) (change : TableOrigin → Members → Option Members) :
    List String → TableOrigin → Members → Option Members
  | [], origin, members => change origin members
  | key :: path, _, members =>
    match members.lookup key with
    | none => do
      let origin := if dotted then .dotted else .implied
      let inner ← within dotted change path origin []
      pure (Entries.put key (.table origin inner) members)
    | some (.table origin inner) =>
      if origin = .inline ∨ (dotted ∧ origin = .header) then none
      else do
        let inner ← within dotted change path origin inner
        pure (Entries.put key (.table origin inner) members)
    | some (.tables last before) => do
      let last ← within dotted change path .header last
      pure (Entries.put key (.tables last before) members)
    | some _ => none

/-- The members with a new key. -/
def addNew (key : String) (value : Toml) (members : Members) : Option Members :=
  if key ∈ Entries.names members then none else some (members ++ [(key, value)])

/-- The members with a value under a dotted key. The parts of the key before the last one must
lead to a table that dotted keys have made. -/
def assignIn (key : List String) (value : Toml) (origin : TableOrigin) (members : Members) :
    Option Members :=
  match key.getLast? with
  | none => none
  | some name =>
    within true
      (fun found members =>
        if found = .dotted ↔ 1 < key.length then addNew name value members else none)
      key.dropLast origin members

/-- The members of a document with a value under a dotted key, below the header. -/
def assign (header key : List String) (value : Toml) (members : Members) : Option Members :=
  within false (assignIn key value) header .header members

/-- The members of a document with the table of a header. The table is new, or has been implied. -/
def openTable (header : List String) (members : Members) : Option Members :=
  match header.getLast? with
  | none => none
  | some name =>
    within false
      (fun _ members =>
        match members.lookup name with
        | none => some (members ++ [(name, .table .header [])])
        | some (.table .implied inner) => some (Entries.put name (.table .header inner) members)
        | some _ => none)
      header.dropLast .header members

/-- The members of a document with one more entry in the array of tables of a header. -/
def openEntry (header : List String) (members : Members) : Option Members :=
  match header.getLast? with
  | none => none
  | some name =>
    within false
      (fun _ members =>
        match members.lookup name with
        | none => some (members ++ [(name, .tables [] [])])
        | some (.tables last before) =>
          some (Entries.put name (.tables [] (last :: before)) members)
        | some _ => none)
      header.dropLast .header members

end Toml

end ColumnIndex
