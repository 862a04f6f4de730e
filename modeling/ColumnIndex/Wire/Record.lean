import ColumnIndex.Json.Scan
import ColumnIndex.Wire.Fault

/-!
# Records in the order of their text

Schemas and searches are records: objects with known attributes, or lists of the values of these
attributes in their order. A record is read from a scan, one attribute after the other, so the
first fault in the order of the text is the one that is found. Attributes that are not known are
passed over.

## Main definitions

* `Wire.Slot` — an attribute of a record that is built up.
* `Wire.readRecord` — a record from a scan.
* `Wire.readWhole` — what a text holds, and nothing behind it.
-/
namespace ColumnIndex.Wire

open Json (Scan Scanned Stop SyntaxFault)

/-! ## Values in scans -/

/-- The fault of a scan that has not the form that is wanted: only its start is looked at. -/
def unfitScan {α : Type} (wanted : String) : Scan → Except Fault α
  | .scalar (.ok j) => .error (.wrongType (.ofJson j) wanted)
  | .scalar (.error fault) => .error (.malformed fault)
  | .list .. => .error (.wrongType .list wanted)
  | .object .. => .error (.wrongType .object wanted)
  | .broken stop => .error (.malformed stop.wanted)

/-- A text. -/
def scanText : Scan → Except Fault String
  | .scalar (.ok (.text s)) => .ok s
  | s => unfitScan "a string" s

/-- A truth value. -/
def scanBool : Scan → Except Fault Bool
  | .scalar (.ok (.bool b)) => .ok b
  | s => unfitScan "a boolean" s

/-- A value that may be null. -/
def scanOptional {α : Type} (read : Scan → Except Fault α) : Scan → Except Fault (Option α)
  | .scalar (.ok .null) => .ok none
  | s => (read s).map some

/-- A tree, which is then read as a whole. -/
def scanTree {α : Type} (room : Nat) (read : Json → Except Fault α) (s : Scan) :
    Except Fault α := do
  let tree ← (s.toJson room).mapError .malformed
  read tree

/-- The room inside a list or an object. -/
def enter (room : Nat) : Except Fault Nat :=
  match room with
  | 0 => .error (.malformed .tooDeep)
  | room + 1 => .ok room

/-- The end of a list or an object. -/
def close (stop : Option Stop) : Except Fault Unit := (Scan.closed stop).mapError .malformed

/-- The items of a list, each read as it is met. -/
def scanList {α : Type} (room : Nat) (read : Nat → Scan → Except Fault α) :
    Scan → Except Fault (List α)
  | .list items stop => do
    let room ← enter room
    let values ← items.mapM (read room)
    close stop
    pure values
  | s => unfitScan "a sequence" s

/-! ## Records -/

/-- An attribute of a record: its name, whether it must be there, and how its value becomes part
of the record. -/
structure Slot (σ : Type) where
  name : String
  required : Bool
  read : Nat → σ → Scan → Except Fault σ

variable {σ : Type}

/-- The record after more members of an object, and the names of the attributes that were read.
An attribute must not come twice. -/
def readMembers (slots : List (Slot σ)) (room : Nat) (seen : List String) (record : σ) :
    Scan.Members → Except Fault (σ × List String)
  | [] => .ok (record, seen)
  | (key, value) :: members => do
    let name ← key.mapError .malformed
    match slots.find? (·.name == name) with
    | none =>
      value.skip.mapError .malformed
      readMembers slots room seen record members
    | some slot =>
      if name ∈ seen then .error (.repeated name)
      else
        let record ← slot.read room record value
        readMembers slots room (name :: seen) record members

/-- The fault of a list that goes on where it should end. -/
def overlong (items : List Scan) (stop : Option Stop) : Except Fault Unit :=
  match items, stop with
  | [], none => .ok ()
  | [], some stop =>
    .error (.malformed
      (if stop.wanted = .endOfList ∨ stop.wanted = .trailingComma then stop.wanted
        else .trailingCharacters))
  | _ :: _, _ => .error (.malformed .trailingCharacters)

/-- The record after more items of a list, one for each attribute. -/
def readItems (wanted : String) (stop : Option Stop) (room count : Nat) (record : σ) :
    List (Slot σ) → List Scan → Except Fault σ
  | [], items => do
    overlong items stop
    pure record
  | slot :: slots, [] => do
    close stop
    if slot.required then .error (.tooShort count wanted)
    else readItems wanted stop room count record slots []
  | slot :: slots, item :: items => do
    let record ← slot.read room record item
    readItems wanted stop room (count + 1) record slots items

/-- The name of a record in a fault about its length. -/
def recordOf (name : String) (slots : List (Slot σ)) : String :=
  name ++ " with " ++ Text.intText slots.length ++ " elements"

/-- A record with the attributes, from an object or a list. -/
def readRecord (name : String) (slots : List (Slot σ)) (room : Nat) (empty : σ) :
    Scan → Except Fault σ
  | .object members stop => do
    let room ← enter room
    let (record, seen) ← readMembers slots room [] empty members
    close stop
    match slots.find? fun slot => slot.required && !seen.contains slot.name with
    | some slot => .error (.missing slot.name)
    | none => pure record
  | .list items stop => do
    let room ← enter room
    readItems (recordOf name slots) stop room 0 empty slots items
  | s => unfitScan name s

/-- What a text holds; nothing but blanks may stand behind it. -/
def readWhole {α : Type} (read : Nat → Scan → Except Fault α) (text : String) : Except Fault α := do
  let scanned := Json.scan text
  let value ← read Json.maxDepth scanned.root
  scanned.ended.mapError .malformed
  pure value

end ColumnIndex.Wire
