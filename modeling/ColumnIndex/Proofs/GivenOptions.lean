import ColumnIndex.IndexOptions.Entries
import ColumnIndex.Proofs.Outcome
import ColumnIndex.Proofs.Texts.Words

/-!
# Which entries give options

Entries give the options of an index exactly if the text of the schema is that of a schema, the
texts of all numbers that are given spell numbers of sixty-four bits, and no number is zero that
must not be. Only the keys of options matter, and whatever is wrong is a fault of the configuration.

## Main definitions

* `Text.SpellsNumber` — digits that spell a number, with a plus or none.
* `IndexOptions.GivesSchema`, `IndexOptions.GivesNumber`, `IndexOptions.Excludes` — what entries
  say.
* `IndexOptions.MakesSense` — the entries that make sense.
* `IndexOptions.Realizes` — options with all that entries say.

Main statement: `IndexOptions.givesOptions_iff`.
-/
namespace ColumnIndex

open Outcome

/-! ## Numbers -/

namespace Text

variable {cs : List Char} {limit n : Nat}

/-- The characters are digits that spell the number, behind a plus or not. -/
def SpellsNumber (cs : List Char) (n : Nat) : Prop :=
  ∃ digits, (cs = digits ∨ cs = '+' :: digits) ∧ digits ≠ [] ∧ (∀ c ∈ digits, isDigit c) ∧
    numberOf digits = n

theorem number?_eq_some :
    number? cs = some n ↔ cs ≠ [] ∧ (∀ c ∈ cs, isDigit c) ∧ numberOf cs = n := by
  rw [number?]
  by_cases hnil : cs = []
  · simp [hnil]
  · by_cases hdigits : ∀ c ∈ cs, isDigit c <;> simp [hnil, hdigits]

theorem unsigned?_eq_some : unsigned? limit cs = some n ↔ SpellsNumber cs n ∧ n < limit := by
  have hread : ∀ digits, (number? digits).filter (· < limit) = some n ↔
      (digits ≠ [] ∧ (∀ c ∈ digits, isDigit c) ∧ numberOf digits = n) ∧ n < limit := by
    intro digits
    rw [Option.filter_eq_some_iff, number?_eq_some, decide_eq_true_iff]
  unfold unsigned?
  dsimp only
  split
  · rename_i rest
    rw [hread, SpellsNumber]
    constructor
    · rintro ⟨hdigits, hlt⟩
      exact ⟨⟨rest, .inr rfl, hdigits⟩, hlt⟩
    · rintro ⟨⟨digits, rfl | hcs, hne, hdigits, hnumber⟩, hlt⟩
      · -- A plus is no digit.
        exact absurd (hdigits '+' List.mem_cons_self) (by decide)
      · obtain rfl := (List.cons.inj hcs).2
        exact ⟨⟨hne, hdigits, hnumber⟩, hlt⟩
  · rename_i hplus
    rw [hread, SpellsNumber]
    constructor
    · rintro ⟨hdigits, hlt⟩
      exact ⟨⟨cs, .inl rfl, hdigits⟩, hlt⟩
    · rintro ⟨⟨digits, rfl | hcs, hdigits⟩, hlt⟩
      · exact ⟨hdigits, hlt⟩
      · exact absurd hcs (hplus digits)

end Text

theorem NumberOption.allowsZero_eq_false_iff {option : NumberOption} :
    option.allowsZero = false ↔ option ≠ .indexingThreads := by
  cases option <;> decide

namespace IndexOptions

/-! ## What entries say -/

variable {entries : List (String × String)} {option : NumberOption} {n : Nat}

/-- The text under the key of the schema is that of a draft of the schema. -/
def GivesSchema (entries : List (String × String)) (s : Schema) : Prop :=
  ∃ text, textUnder? entries "schema" = some text ∧
    ∃ d, (Schema.Draft.decode text).result = .ok d ∧ d.build.result = .ok s

/-- The text under the key of an option spells the number, which fits sixty-four bits; or there is
no text, and the number is the one that holds then. -/
def GivesNumber (entries : List (String × String)) (option : NumberOption) (n : Nat) : Prop :=
  match textUnder? entries option.key with
  | none => n = option.fallback
  | some text => Text.SpellsNumber (Text.trimChars text.toList) n ∧ n < 2 ^ 64

/-- The data center is one of the items of the list that are not blank. -/
def Excludes (entries : List (String × String)) (dataCenter : String) : Prop :=
  dataCenter ≠ "" ∧ ∃ list, textUnder? entries "excluded_data_centers" = some list ∧
    ∃ item ∈ list.toList.splitOn ',', Text.trim (String.ofList item) = dataCenter

/-- Whether entries make sense: they give a schema and all numbers, and no number is zero but that
of threads. -/
structure MakesSense (entries : List (String × String)) : Prop where
  schema : ∃ s, GivesSchema entries s
  number : ∀ option, ∃ n, GivesNumber entries option n ∧ (option ≠ .indexingThreads → 0 < n)

/-- The options have all that the entries say. -/
structure Realizes (options : IndexOptions) (entries : List (String × String)) : Prop where
  schema : GivesSchema entries options.schema
  number : ∀ option, GivesNumber entries option (options.number option)
  excluded : ∀ dataCenter, options.isExcluded dataCenter ↔ Excludes entries dataCenter

/-! ## Numbers of entries -/

/-- The number that is given for an option. -/
def number? (entries : List (String × String)) (option : NumberOption) : Option Nat :=
  (textUnder? entries option.key).bind fun text =>
    Text.unsigned? numberLimit (Text.trimChars text.toList)

theorem givesNumber_iff : GivesNumber entries option n ↔
    (∃ given, givenNumber entries option = .ok given) ∧
      (number? entries option).getD option.fallback = n := by
  rw [GivesNumber, givenNumber, number?]
  cases textUnder? entries option.key with
  | none => simp [eq_comm]
  | some text =>
    dsimp only
    rw [← Text.unsigned?_eq_some, Option.bind_some, ← numberLimit]
    cases Text.unsigned? numberLimit (Text.trimChars text.toList) <;> simp

theorem givenNumber_eq_ok {given : Option (NumberOption × Nat)}
    (h : givenNumber entries option = .ok given) :
    given = (number? entries option).map (option, ·) := by
  rw [givenNumber] at h
  rw [number?]
  split at h
  · rename_i htext
    cases h
    rw [htext]
    rfl
  · rename_i text htext
    split at h
    · rename_i n hn
      cases h
      rw [htext, Option.bind_some, hn]
      rfl
    · cases h

/-- All numbers are read if each of them is. -/
theorem exists_filterMapM_iff {options : List NumberOption} :
    (∃ numbers, options.filterMapM (givenNumber entries) = .ok numbers) ↔
      ∀ option ∈ options, ∃ given, givenNumber entries option = .ok given := by
  induction options with
  | nil => simp [pure_eq_ok]
  | cons option options ih =>
    rw [List.forall_mem_cons, ← ih, List.filterMapM_cons, exists_bind_eq_ok]
    constructor
    · rintro ⟨given, hgiven, numbers, hrest⟩
      refine ⟨⟨given, hgiven⟩, ?_⟩
      cases given with
      | none => exact ⟨numbers, hrest⟩
      | some entry =>
        obtain ⟨rest, hrest, -⟩ := bind_eq_ok.1 hrest
        exact ⟨rest, hrest⟩
    · rintro ⟨⟨given, hgiven⟩, rest, hrest⟩
      refine ⟨given, hgiven, ?_⟩
      cases given with
      | none => exact ⟨rest, hrest⟩
      | some entry => exact ⟨entry :: rest, bind_eq_ok.2 ⟨rest, hrest, rfl⟩⟩

/-- The number of an option is found among those that were read. -/
theorem lookup_of_filterMapM {options : List NumberOption} {numbers : List (NumberOption × Nat)}
    (h : options.filterMapM (givenNumber entries) = .ok numbers) (option : NumberOption) :
    numbers.lookup option = if option ∈ options then number? entries option else none := by
  induction options generalizing numbers with
  | nil =>
    rw [List.filterMapM_nil, pure_eq_ok] at h
    subst h
    rfl
  | cons first options ih =>
    rw [List.filterMapM_cons] at h
    obtain ⟨given, hgiven, hrest⟩ := bind_eq_ok.1 h
    have hfirst := givenNumber_eq_ok hgiven
    cases hnumber : number? entries first with
    | none =>
      rw [hnumber, Option.map_none] at hfirst
      subst hfirst
      rw [ih hrest]
      by_cases hoption : option = first
      · rw [hoption, hnumber]
        simp
      · simp [hoption]
    | some n =>
      rw [hnumber, Option.map_some] at hfirst
      subst hfirst
      obtain ⟨rest, hread, hnumbers⟩ := bind_eq_ok.1 hrest
      rw [pure_eq_ok] at hnumbers
      subst hnumbers
      rw [List.lookup_cons, ih hread]
      by_cases hoption : option = first
      · simp [hoption, hnumber]
      · simp [hoption, beq_false_of_ne hoption]

/-! ## Data centers -/

theorem mem_listItems {text dataCenter : String} : dataCenter ∈ listItems text ↔
    dataCenter ≠ "" ∧
      ∃ item ∈ text.toList.splitOn ',', Text.trim (String.ofList item) = dataCenter := by
  have hcomma : (fun c : Char => !(c != ',')) = (· == ',') := by
    funext c
    rw [bne, Bool.not_not]
  rw [listItems, Text.runs_eq_filter_splitOnP, hcomma, ← List.splitOn_eq_splitOnP]
  simp only [List.mem_map, List.mem_filter, Text.trim, String.toList_ofList]
  constructor
  · rintro ⟨_, ⟨⟨item, ⟨hitem, -⟩, rfl⟩, hne⟩, rfl⟩
    exact ⟨by simpa using hne, item, hitem, rfl⟩
  · rintro ⟨hne, item, hitem, rfl⟩
    have htrim : Text.trimChars item ≠ [] := by simpa using hne
    have hitem' : item ≠ [] := by
      rintro rfl
      exact htrim rfl
    exact ⟨_, ⟨⟨item, ⟨hitem, by simpa using hitem'⟩, rfl⟩, by simpa using htrim⟩, rfl⟩

/-! ## Drafts -/

namespace Draft

variable {d : Draft} {s : Schema} {options : IndexOptions}

theorem ofEntries_eq_ok : ofEntries entries = .ok d ↔
    ∃ numbers, NumberOption.all.filterMapM (givenNumber entries) = .ok numbers ∧
      d = ⟨textUnder? entries "schema", numbers,
        ((textUnder? entries "excluded_data_centers").map listItems).getD []⟩ := by
  simp only [ofEntries, bind_eq_ok, pure_eq_ok, @eq_comm _ d]

theorem schema_of_ofEntries (h : ofEntries entries = .ok d) :
    d.schema = textUnder? entries "schema" := by
  obtain ⟨numbers, -, rfl⟩ := ofEntries_eq_ok.1 h
  rfl

/-- The draft of entries has the numbers that they give. -/
theorem number_of_ofEntries (h : ofEntries entries = .ok d) (option : NumberOption) :
    GivesNumber entries option n ↔ d.number option = n := by
  obtain ⟨numbers, hnumbers, rfl⟩ := ofEntries_eq_ok.1 h
  have hgiven := exists_filterMapM_iff.1 ⟨numbers, hnumbers⟩ option option.mem_all
  rw [givesNumber_iff, number, lookup_of_filterMapM hnumbers, if_pos option.mem_all]
  exact and_iff_right hgiven

theorem exists_ofEntries_iff :
    (∃ d, ofEntries entries = .ok d) ↔ ∀ option, ∃ n, GivesNumber entries option n := by
  simp only [ofEntries_eq_ok, givesNumber_iff, exists_and_left, exists_eq', and_true]
  constructor
  · rintro ⟨d, numbers, hnumbers, -⟩ option
    exact exists_filterMapM_iff.1 ⟨numbers, hnumbers⟩ option option.mem_all
  · intro h
    obtain ⟨numbers, hnumbers⟩ := exists_filterMapM_iff.2 fun option _ => h option
    exact ⟨_, numbers, hnumbers, rfl⟩

theorem isExcluded_of_ofEntries (h : ofEntries entries = .ok d)
    (hoptions : options.excludedDataCenters = d.excludedDataCenters) (dataCenter : String) :
    options.isExcluded dataCenter ↔ Excludes entries dataCenter := by
  obtain ⟨numbers, -, rfl⟩ := ofEntries_eq_ok.1 h
  rw [isExcluded, hoptions, List.contains_iff_mem, Excludes]
  cases textUnder? entries "excluded_data_centers" with
  | none => simp
  | some list => simp [mem_listItems]

/-! ## Checks -/

theorem check_eq_ok : d.check s = .ok options ↔
    (∀ option ≠ .indexingThreads, 0 < d.number option) ∧ options.schema = s ∧
      options.number = d.number ∧ options.excludedDataCenters = d.excludedDataCenters := by
  simp only [← NumberOption.allowsZero_eq_false_iff]
  constructor
  · intro h
    unfold check at h
    split at h
    · cases h
    · rename_i hzero
      cases h
      exact ⟨d.number_pos hzero, rfl, rfl, rfl⟩
  · rintro ⟨hpositive, hschema, hnumber, hexcluded⟩
    unfold check
    split
    · rename_i o hzero
      have hfound := List.find?_some hzero
      simp only [Bool.and_eq_true, Bool.not_eq_true', beq_iff_eq] at hfound
      exact absurd hfound.2 (hpositive o hfound.1).ne'
    · cases options
      subst hschema hnumber hexcluded
      rfl

/-- What is built of a draft. -/
theorem build_eq_ok : d.build.result = .ok options ↔
    (∃ text, d.schema = some text ∧ (Schema.decode text).result = .ok options.schema) ∧
      (∀ option ≠ .indexingThreads, 0 < d.number option) ∧ options.number = d.number ∧
        options.excludedDataCenters = d.excludedDataCenters := by
  have hschema : ∀ text, d.schemaText = .ok text ↔ d.schema = some text := by
    intro text
    unfold schemaText
    cases d.schema <;> simp
  simp only [build, Recorded.result_bind, Recorded.result_ofExcept, Recorded.result_mapError,
    bind_eq_ok, mapError_eq_ok, hschema, check_eq_ok]
  constructor
  · rintro ⟨text, htext, s, hs, hpositive, rfl, hnumber, hexcluded⟩
    exact ⟨⟨text, htext, hs⟩, hpositive, hnumber, hexcluded⟩
  · rintro ⟨⟨text, htext, hs⟩, hpositive, hnumber, hexcluded⟩
    exact ⟨text, htext, _, hs, hpositive, rfl, hnumber, hexcluded⟩

theorem exists_build_iff : (∃ options, d.build.result = .ok options) ↔
    (∃ text s, d.schema = some text ∧ (Schema.decode text).result = .ok s) ∧
      ∀ option ≠ .indexingThreads, 0 < d.number option := by
  simp only [build_eq_ok]
  constructor
  · rintro ⟨options, ⟨text, htext, hs⟩, hpositive, -⟩
    exact ⟨⟨text, _, htext, hs⟩, hpositive⟩
  · rintro ⟨⟨text, s, htext, hs⟩, hpositive⟩
    have hnumber : ∀ option : NumberOption, option.allowsZero = false → 0 < d.number option :=
      fun option hzero => hpositive option (NumberOption.allowsZero_eq_false_iff.1 hzero)
    exact ⟨⟨s, d.number, d.excludedDataCenters, hnumber⟩, ⟨text, htext, hs⟩, hpositive, rfl, rfl⟩

/-- Whatever is wrong with a draft is a fault of the options. -/
theorem exists_fault_of_build {e : IndexError} (h : d.build.result = .error e) :
    ∃ fault : OptionsFault, e = report fault := by
  simp only [build, Recorded.result_bind, Recorded.result_ofExcept, Recorded.result_mapError,
    bind_eq_error, mapError_eq_error] at h
  rcases h with ⟨fault, -, rfl⟩ | ⟨text, -, ⟨own, -, rfl⟩ | ⟨s, -, fault, -, rfl⟩⟩
  · exact ⟨fault, rfl⟩
  · exact ⟨.badSchema own, rfl⟩
  · exact ⟨fault, rfl⟩

end Draft

/-! ## Options of entries -/

variable {options : IndexOptions}

theorem givesSchema_iff {s : Schema} : GivesSchema entries s ↔
    ∃ text, textUnder? entries "schema" = some text ∧ (Schema.decode text).result = .ok s := by
  simp only [GivesSchema, Schema.decode, Recorded.result_bind, bind_eq_ok]

theorem result_ofEntries_eq_ok : (ofEntries entries).result = .ok options ↔
    ∃ d, Draft.ofEntries entries = .ok d ∧ d.build.result = .ok options := by
  simp only [ofEntries, Recorded.result_bind, Recorded.result_ofExcept, bind_eq_ok, mapError_eq_ok]

/-- Options of entries have all that the entries say. -/
theorem realizes_of_ofEntries (h : (ofEntries entries).result = .ok options) :
    options.Realizes entries := by
  obtain ⟨d, hdraft, hbuild⟩ := result_ofEntries_eq_ok.1 h
  obtain ⟨hschema, -, hnumber, hexcluded⟩ := Draft.build_eq_ok.1 hbuild
  rw [Draft.schema_of_ofEntries hdraft] at hschema
  exact
    { schema := givesSchema_iff.2 hschema
      number := fun option => (Draft.number_of_ofEntries hdraft option).2 (by rw [hnumber])
      excluded := Draft.isExcluded_of_ofEntries hdraft hexcluded }

/-- There are options of all entries that make sense, and of no others. -/
theorem exists_options_iff :
    (∃ options, (ofEntries entries).result = .ok options) ↔ MakesSense entries := by
  constructor
  · rintro ⟨options, h⟩
    have hrealizes := realizes_of_ofEntries h
    refine ⟨⟨_, hrealizes.schema⟩, fun option => ⟨_, hrealizes.number option, fun hoption => ?_⟩⟩
    exact options.positive option (NumberOption.allowsZero_eq_false_iff.2 hoption)
  · rintro ⟨⟨s, hs⟩, hnumbers⟩
    obtain ⟨d, hdraft⟩ := Draft.exists_ofEntries_iff.2 fun option => (hnumbers option).imp
      fun _ => And.left
    obtain ⟨text, htext, hdecode⟩ := givesSchema_iff.1 hs
    have hpositive : ∀ option ≠ .indexingThreads, 0 < d.number option := by
      intro option hoption
      obtain ⟨n, hn, hpositive⟩ := hnumbers option
      rw [(Draft.number_of_ofEntries hdraft option).1 hn]
      exact hpositive hoption
    have hbuild : ∃ options, d.build.result = .ok options :=
      Draft.exists_build_iff.2 ⟨⟨text, s, (Draft.schema_of_ofEntries hdraft).trans htext, hdecode⟩,
        hpositive⟩
    obtain ⟨options, hoptions⟩ := hbuild
    exact ⟨options, result_ofEntries_eq_ok.2 ⟨d, hdraft, hoptions⟩⟩

/-- Every fault of entries is one of the configuration. -/
theorem errorClass_of_ofEntries {e : IndexError} (h : (ofEntries entries).result = .error e) :
    e.errorClass = .configuration := by
  have hfault : ∃ fault : OptionsFault, e = report fault := by
    simp only [ofEntries, Recorded.result_bind, Recorded.result_ofExcept, bind_eq_error,
      mapError_eq_error] at h
    rcases h with ⟨fault, -, rfl⟩ | ⟨d, -, h⟩
    · exact ⟨fault, rfl⟩
    · exact Draft.exists_fault_of_build h
  obtain ⟨fault, rfl⟩ := hfault
  rfl

/-- Entries that have the same texts under all keys of options give the same. -/
theorem ofEntries_congr {entries' : List (String × String)}
    (h : ∀ key ∈ keys, textUnder? entries' key = textUnder? entries key) :
    ofEntries entries' = ofEntries entries := by
  have hnumber : givenNumber entries' = givenNumber entries := by
    funext option
    have hkey : option.key ∈ keys :=
      List.mem_append_left _ (List.mem_cons_of_mem _ (List.mem_map_of_mem option.mem_all))
    rw [givenNumber, givenNumber, h _ hkey]
  rw [ofEntries, ofEntries, Draft.ofEntries, Draft.ofEntries, hnumber, h "schema" (by decide),
    h "excluded_data_centers" (by decide)]

/-- Entries give options exactly if they make sense, and the options have all that the entries
say. Whatever is wrong is a fault of the configuration, and texts under keys that no option has
change nothing. -/
theorem givesOptions_iff (entries : List (String × String)) :
    ((∃ options, (ofEntries entries).result = .ok options) ↔ MakesSense entries) ∧
      (∀ options, (ofEntries entries).result = .ok options → options.Realizes entries) ∧
      (∀ e, (ofEntries entries).result = .error e → e.errorClass = .configuration) ∧
      ∀ entries', (∀ key ∈ keys, textUnder? entries' key = textUnder? entries key) →
        ofEntries entries' = ofEntries entries :=
  ⟨exists_options_iff, fun _ => realizes_of_ofEntries, fun _ => errorClass_of_ofEntries,
    fun _ => ofEntries_congr⟩

/-- Entries with an integer field, a number behind a plus that replaces a text that is none, and two
data centers. -/
def sampleEntries : List (String × String) :=
  [("refresh_seconds", "often"),
    ("schema", "\x7b\"fields\":\x7b\"age\":\x7b\"type\":\"integer\"\x7d\x7d\x7d"),
    ("excluded_data_centers", " east,, west ,"), ("refresh_seconds", " +1 ")]

theorem centers_sampleEntries :
    (ofEntries sampleEntries).result.toOption.map IndexOptions.excludedDataCenters =
      some ["east", "west"] := by
  decide +kernel

theorem result_ofEntries_nil :
    (ofEntries []).result = .error (report OptionsFault.schemaMissing) := by
  rfl

/-- The sample makes sense, no entries at all are a fault, and a name of a class says nothing. -/
theorem givesOptions_iff_sample :
    (∃ options, (ofEntries sampleEntries).result = .ok options ∧
        options.Realizes sampleEntries) ∧ MakesSense sampleEntries ∧
      (report OptionsFault.schemaMissing).errorClass = .configuration ∧
      ofEntries (("class_name", "Index") :: sampleEntries) = ofEntries sampleEntries := by
  obtain ⟨hsense, hrealizes, -, hkeys⟩ := givesOptions_iff sampleEntries
  obtain ⟨-, -, hfault, -⟩ := givesOptions_iff []
  have hread : ∃ options, (ofEntries sampleEntries).result = .ok options := by
    cases h : (ofEntries sampleEntries).result with
    | ok options => exact ⟨options, rfl⟩
    | error e =>
      have hcenters := centers_sampleEntries
      rw [h] at hcenters
      cases hcenters
  refine ⟨hread.imp fun options h => ⟨h, hrealizes options h⟩, hsense.1 hread,
    hfault _ result_ofEntries_nil, hkeys _ ?_⟩
  decide

end IndexOptions

end ColumnIndex
