import ColumnIndex.Mapper.Draft.Json
import ColumnIndex.Schema.Draft
import ColumnIndex.Wire.Record

/-!
# Drafts of schemas in JSON

The draft of a schema is a record of the default analyzer and the fields. The fields are an object
whose members keep their order.

## Main definitions

* `Schema.Draft.toJson` — the object of a draft.
* `Schema.Draft.parse`, `Schema.Draft.decode` — the draft of a text, without and with events.
* `Schema.decode` — the schema of a text.
-/
namespace ColumnIndex.Schema

open Wire
open Json (Scan)

/-- The object of a draft. -/
def Draft.toJson (d : Draft) : Json :=
  .object
    (member? "default_analyzer" .text d.defaultAnalyzer
      ++ [("fields", .object (d.fields.map fun (name, m) => (name, m.toJson)))])

/-- The text of a draft. -/
def Draft.text (d : Draft) : String := d.toJson.compact

/-- The fields after more members of an object. -/
def readFieldMembers (room : Nat) (done : List (String × Mapper.Draft)) :
    Scan.Members → Except Fault (List (String × Mapper.Draft))
  | [] => .ok done
  | (key, value) :: members => do
    let name ← key.mapError .malformed
    let d ← scanTree room Mapper.Draft.ofJson value
    if name ∈ Entries.names done then .error (.repeatedField name)
    else readFieldMembers room (done ++ [(name, d)]) members

/-- The fields of an object. -/
def readFields (room : Nat) : Scan → Except Fault (List (String × Mapper.Draft))
  | .object members stop => do
    let room ← enter room
    let fields ← readFieldMembers room [] members
    close stop
    pure fields
  | s => unfitScan "a map of field names to mappers" s

/-- The attributes of a schema. -/
def slots : List (Slot Draft) :=
  [⟨"default_analyzer", false, fun _ d s => do
      let name ← scanOptional scanText s
      pure { d with defaultAnalyzer := name }⟩,
    ⟨"fields", false, fun room d s => do
      let fields ← readFields room s
      pure { d with fields := fields }⟩]

/-- The draft of a text. -/
def Draft.parse (text : String) : Except Fault Draft :=
  readWhole (fun room => readRecord "struct SchemaBuilder" slots room {}) text

/-- The draft of a text; success is an event. -/
def Draft.decode (text : String) : Recorded Draft := do
  let d ← .ofExcept (Draft.parse text)
  .note (.jsonDecoded .schema)
  pure d

/-- The schema of a text. -/
def decode (text : String) : Recorded Schema := do
  let d ← Draft.decode text
  d.build

end ColumnIndex.Schema
