import ColumnIndex.Schema.Draft.Json

/-!
# Index options

The options of an index are its schema, six numbers, and the data centers that are left out. All
but the schema have defaults. Five of the numbers must be positive; no indexing thread means that
a caller indexes on its own thread.

## Main definitions

* `NumberOption` — the options that are numbers, with their keys and defaults.
* `IndexOptions` — the options of an index.
* `OptionsFault` — what may be wrong with them, and its wording.
* `IndexOptions.Draft` — the options that are given.
* `IndexOptions.Draft.build` — the options of an index, if those that are given are valid.
-/
namespace ColumnIndex

/-- The options that are numbers. -/
inductive NumberOption
  | refreshSeconds
  | ramBufferMb
  | maxMergeMb
  | maxCachedMb
  | indexingThreads
  | indexingQueuesSize
  deriving DecidableEq

namespace NumberOption

/-- The options in the order in which they are read and checked. -/
def all : List NumberOption :=
  [refreshSeconds, ramBufferMb, maxMergeMb, maxCachedMb, indexingThreads, indexingQueuesSize]

/-- The key of an option. -/
def key : NumberOption → String
  | refreshSeconds => "refresh_seconds"
  | ramBufferMb => "ram_buffer_mb"
  | maxMergeMb => "max_merge_mb"
  | maxCachedMb => "max_cached_mb"
  | indexingThreads => "indexing_threads"
  | indexingQueuesSize => "indexing_queues_size"

/-- The number that holds when none is given. -/
def fallback : NumberOption → Nat
  | refreshSeconds => 60
  | ramBufferMb => 64
  | maxMergeMb => 5
  | maxCachedMb => 30
  | indexingThreads => 0
  | indexingQueuesSize => 50

/-- Whether the number may be zero. -/
def allowsZero : NumberOption → Bool
  | indexingThreads => true
  | _ => false

/-- The option with a key. -/
def ofKey? (key : String) : Option NumberOption := all.find? (·.key == key)

theorem mem_all (o : NumberOption) : o ∈ all := by cases o <;> decide

end NumberOption

/-- All numbers are below this one. -/
def numberLimit : Nat := 2 ^ 64

/-- The options of an index. -/
structure IndexOptions where
  schema : Schema
  number : NumberOption → Nat
  excludedDataCenters : List String
  positive : ∀ o : NumberOption, o.allowsZero = false → 0 < number o

namespace IndexOptions

/-- Whether a caller indexes on its own thread. -/
def isSynchronous (options : IndexOptions) : Bool := options.number .indexingThreads == 0

/-- Whether a data center is left out. -/
def isExcluded (options : IndexOptions) (dataCenter : String) : Bool :=
  options.excludedDataCenters.contains dataCenter

/-- The keys of all options. -/
def keys : List String :=
  "schema" :: NumberOption.all.map NumberOption.key ++ ["excluded_data_centers"]

end IndexOptions

/-! ## Faults -/

/-- What may be wrong with options. -/
inductive OptionsFault
  | schemaMissing
  | badSchema (error : IndexError)
  /-- The text of an option spells no number. -/
  | notNumber (option : NumberOption) (text : String)
  | zero (option : NumberOption)
  /-- A document is no TOML, or holds a number beyond the range of every type. -/
  | unreadable
  /-- A document holds a key that no option has. -/
  | unknownKey (key : String)
  /-- A value in a document is none for its key. -/
  | badEntry (fault : Wire.Fault)

/-- The heading of all faults of a document. The cause follows on a line of its own. -/
def documentHeading : String := "TOML parse error"

/-- The keys of all options in quotes, with commas between them. -/
def quotedKeys : String :=
  String.intercalate ", " (IndexOptions.keys.map fun key => "`" ++ key ++ "`")

/-- The wording of a fault. -/
def OptionsFault.message : OptionsFault → String
  | schemaMissing => "missing required option 'schema'"
  | badSchema error => "invalid option 'schema': " ++ error.message
  | notNumber option text =>
    "option '" ++ option.key ++ "' must be a non-negative integer, found '" ++ text ++ "'"
  | zero option => "option '" ++ option.key ++ "' must be strictly positive, found 0"
  | unreadable => documentHeading
  | unknownKey key =>
    documentHeading ++ "\nunknown field `" ++ key ++ "`, expected one of " ++ quotedKeys
  | badEntry fault => documentHeading ++ "\n" ++ fault.message

instance : Reported OptionsFault where
  report fault := ⟨.configuration, .config, fault.message⟩

/-! ## Drafts -/

/-- Options as they are given, before they are checked. -/
structure IndexOptions.Draft where
  schema : Option String := none
  numbers : List (NumberOption × Nat) := []
  excludedDataCenters : List String := []

namespace IndexOptions.Draft

/-- The number of an option: the one that is given, or the fallback. -/
def number (d : Draft) (option : NumberOption) : Nat :=
  (d.numbers.lookup option).getD option.fallback

/-- The text of the schema, which must be given. -/
def schemaText (d : Draft) : Except OptionsFault String :=
  match d.schema with
  | some text => .ok text
  | none => .error .schemaMissing

/-- The first option whose number is zero and must not be. -/
def zeroOption? (d : Draft) : Option NumberOption :=
  NumberOption.all.find? fun o => !o.allowsZero && d.number o == 0

theorem number_pos {d : Draft} (h : d.zeroOption? = none) (o : NumberOption)
    (ho : o.allowsZero = false) : 0 < d.number o := by
  have := List.find?_eq_none.1 h o o.mem_all
  simp only [ho, Bool.not_false, Bool.true_and, beq_iff_eq] at this
  omega

/-- The options with the schema, if no number is zero that must not be. -/
def check (d : Draft) (schema : Schema) : Except OptionsFault IndexOptions :=
  match h : d.zeroOption? with
  | some o => .error (.zero o)
  | none => .ok ⟨schema, d.number, d.excludedDataCenters, d.number_pos h⟩

/-- The options of an index. The schema is looked at before the numbers. -/
def build (d : Draft) : Recorded IndexOptions := do
  let text ← .ofExcept d.schemaText
  let schema ← (Schema.decode text).mapError fun e => report (OptionsFault.badSchema e)
  .ofExcept (d.check schema)

end IndexOptions.Draft

end ColumnIndex
