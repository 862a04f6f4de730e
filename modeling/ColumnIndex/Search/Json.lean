import ColumnIndex.Condition.Draft.Json
import ColumnIndex.Search
import ColumnIndex.Wire.Record

/-!
# Drafts of searches in JSON

The draft of a search is a record of the two conditions, the criteria and the refresh flag. What is
not set is left out.

## Main definitions

* `Search.Draft.toJson` — the object of a draft.
* `Search.Draft.parse`, `Search.Draft.decode` — the draft of a text, without and with events.
* `Search.decode` — the search of a text.
-/
namespace ColumnIndex.Search

open Wire
open Json (Scan)

/-! ## Writing -/

/-- A criterion as an object; the usual direction is left out. -/
def sortJson (s : SortRequest) : Json :=
  .object (("field", .text s.field) :: if s.reverse then [("reverse", .bool true)] else [])

/-- The object of a draft. -/
def Draft.toJson (d : Draft) : Json :=
  .object
    (member? "query" Condition.Draft.toJson d.query
      ++ member? "filter" Condition.Draft.toJson d.filter
      ++ (if d.sort.isEmpty then [] else [("sort", .list (d.sort.map sortJson))])
      ++ member? "refresh" .bool d.refresh)

/-- The text of a draft. -/
def Draft.text (d : Draft) : String := d.toJson.compact

/-! ## Reading -/

/-- The attributes of a criterion. -/
def sortSlots : List (Slot SortRequest) :=
  [⟨"field", true, fun _ r s => do
      let field ← scanText s
      pure { r with field := field }⟩,
    ⟨"reverse", false, fun _ r s => do
      let reverse ← scanBool s
      pure { r with reverse := reverse }⟩]

/-- A criterion. -/
def scanSort (room : Nat) (s : Scan) : Except Fault SortRequest :=
  readRecord "struct SortFieldBuilder" sortSlots room ⟨"", false⟩ s

/-- A condition that may be null. -/
def scanCondition (room : Nat) (s : Scan) : Except Fault (Option Condition.Draft) :=
  scanOptional (scanTree room Condition.Draft.ofJson) s

/-- The attributes of a search. -/
def slots : List (Slot Draft) :=
  [⟨"query", false, fun room d s => do
      let query ← scanCondition room s
      pure { d with query := query }⟩,
    ⟨"filter", false, fun room d s => do
      let filter ← scanCondition room s
      pure { d with filter := filter }⟩,
    ⟨"sort", false, fun room d s => do
      let sort ← scanList room scanSort s
      pure { d with sort := sort }⟩,
    ⟨"refresh", false, fun _ d s => do
      let refresh ← scanOptional scanBool s
      pure { d with refresh := refresh }⟩]

/-- The draft of a text. -/
def Draft.parse (text : String) : Except Fault Draft :=
  readWhole (fun room => readRecord "struct SearchBuilder" slots room {}) text

/-- The draft of a text; success is an event. -/
def Draft.decode (text : String) : Recorded Draft := do
  let d ← .ofExcept (Draft.parse text)
  .note (.jsonDecoded .search)
  pure d

/-- The search of a text. -/
def decode (text : String) : Recorded Search := do
  let d ← Draft.decode text
  .ofExcept d.build

end ColumnIndex.Search
