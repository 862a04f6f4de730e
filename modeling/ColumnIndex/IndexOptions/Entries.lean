import ColumnIndex.IndexOptions
import ColumnIndex.Text.Blank
import ColumnIndex.Text.Runs

/-!
# Options as entries

Options may be given as entries of keys and texts. Keys that are no options are ignored. Numbers
are read before anything is checked.

## Main definitions

* `IndexOptions.Draft.ofEntries` — the options that entries give.
* `IndexOptions.ofEntries` — the options of an index.
-/
namespace ColumnIndex.IndexOptions

/-- The text under a key; a later entry replaces an earlier one. -/
def textUnder? (entries : List (String × String)) (key : String) : Option String :=
  entries.reverse.lookup key

/-- The number of an option, if one is given. -/
def givenNumber (entries : List (String × String)) (option : NumberOption) :
    Except OptionsFault (Option (NumberOption × Nat)) :=
  match textUnder? entries option.key with
  | none => .ok none
  | some text =>
    match Text.unsigned? numberLimit (Text.trimChars text.toList) with
    | some n => .ok (some (option, n))
    | none => .error (.notNumber option text)

/-- The items of a list with commas between them, without the blanks around them; an item that is
blank is none. -/
def listItems (text : String) : List String :=
  (((Text.runs (· != ',') text.toList).map Text.trimChars).filter (!·.isEmpty)).map String.ofList

/-- The options that entries give. -/
def Draft.ofEntries (entries : List (String × String)) : Except OptionsFault Draft := do
  let numbers ← NumberOption.all.filterMapM (givenNumber entries)
  pure
    { schema := textUnder? entries "schema"
      numbers := numbers
      excludedDataCenters :=
        ((textUnder? entries "excluded_data_centers").map listItems).getD [] }

/-- The options of an index that entries give. -/
def ofEntries (entries : List (String × String)) : Recorded IndexOptions := do
  let d ← .ofExcept (Draft.ofEntries entries)
  d.build

end ColumnIndex.IndexOptions
