import ColumnIndex.IndexOptions
import ColumnIndex.Number.Binary.Layout
import ColumnIndex.Toml.Document

/-!
# Options as a document

Options may be given as a TOML document. Unlike with entries, every key must be that of an option.
The keys are looked at in their sorted order.

## Main definitions

* `IndexOptions.Draft.ofDocument` — the options that a document gives.
* `IndexOptions.ofDocument` — the options of an index.
-/
namespace ColumnIndex.IndexOptions

open Wire

/-- Fractional numbers in messages about documents have a point and no exponent. -/
def documentFloat : FloatLayout := ⟨none, true, false, .up⟩

/-- What a value is found to be. A number beyond the range of every type is nothing. -/
def found? : Toml → Option Found
  | .text s => some (.text s)
  | .integer i =>
    some (if -2 ^ 63 ≤ i ∧ i < 2 ^ 64 then .whole i
      else .wide i (if i < 2 ^ 127 then "i128" else "u128"))
  | .float x => some (.fraction (x.text documentFloat))
  | .boolean b => some (.bool b)
  | .moment => some .object
  | .tooLarge => none
  | .array _ => some .list
  | .table _ _ => some .object
  | .tables _ _ => some .list

/-- The fault of a value where something else is wanted. -/
def misplaced (wanted : String) (value : Toml) : OptionsFault :=
  match found? value with
  | some found => .badEntry (.wrongType found wanted)
  | none => .unreadable

/-- A text. -/
def readText : Toml → Except OptionsFault String
  | .text s => .ok s
  | value => .error (misplaced "a string" value)

/-- A list of texts. -/
def readTexts : Toml → Except OptionsFault (List String)
  | .array items => items.mapM readText
  | .tables last _ => .error (misplaced "a string" (.table .header last))
  | value => .error (misplaced "a sequence" value)

/-- The type of numbers that an option is of, as messages call it. -/
def numberType : NumberOption → String
  | .indexingThreads => "usize"
  | .indexingQueuesSize => "usize"
  | _ => "u64"

/-- The number of an option. -/
def readNumber (option : NumberOption) : Toml → Except OptionsFault Nat
  | .integer i =>
    if 0 ≤ i ∧ i < numberLimit then .ok i.toNat
    else if -2 ^ 63 ≤ i ∧ i < 0 then .error (.badEntry (.wrongNumber i (numberType option)))
    else .error (misplaced (numberType option) (.integer i))
  | value => .error (misplaced (numberType option) value)

/-- The options with the value of one more key. -/
def Draft.putEntry (d : Draft) (entry : String × Toml) : Except OptionsFault Draft :=
  match entry with
  | ("schema", value) => do
    let text ← readText value
    pure { d with schema := some text }
  | ("excluded_data_centers", value) => do
    let names ← readTexts value
    pure { d with excludedDataCenters := names }
  | (key, value) =>
    match NumberOption.ofKey? key with
    | some option => do
      let n ← readNumber option value
      pure { d with numbers := d.numbers ++ [(option, n)] }
    | none => .error (.unknownKey key)

/-- The members of a document in the order of their keys. -/
def sortedMembers (members : Toml.Members) : Toml.Members :=
  members.mergeSort fun a b => decide (a.1 ≤ b.1)

/-- The options that a document gives. -/
def Draft.ofDocument (text : String) : Except OptionsFault Draft :=
  match Toml.parse? text with
  | some members => (sortedMembers members).foldlM Draft.putEntry {}
  | none => .error .unreadable

/-- The options of an index that a document gives. -/
def ofDocument (text : String) : Recorded IndexOptions := do
  let d ← .ofExcept (Draft.ofDocument text)
  d.build

end ColumnIndex.IndexOptions
