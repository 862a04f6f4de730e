import ColumnIndex.Proofs.Json.Distinct
import ColumnIndex.Proofs.ReadConditions
import Mathlib.Data.List.Forall2

/-!
# The grammar of conditions

A tree is read as a condition if it belongs to a grammar: an object with the name of a kind as its
tag, whose other members are attributes of this kind, each in its form, and whose lists of
conditions hold trees of the grammar again. The grammar is one table of attributes for all kinds.

## Main definitions

* `Condition.Shape`, `Condition.Rule` — what is asked of the value of an attribute.
* `Condition.rules` — the attributes of each kind.
* `Condition.Grammatical` — the trees of the grammar.
* `Condition.Within` — the trees that stand in the place of a condition inside a tree.

Main statement: `Condition.ofJson_iff_grammatical`.
-/
namespace ColumnIndex.Condition

open Outcome Wire

/-! ## The grammar -/

/-- No object stands anywhere in the tree. -/
inductive ObjectFree : Json → Prop
  | null : ObjectFree .null
  | bool (b : Bool) : ObjectFree (.bool b)
  | number (n : Json.Number) : ObjectFree (.number n)
  | text (s : String) : ObjectFree (.text s)
  | list {items : List Json} (h : ∀ item ∈ items, ObjectFree item) : ObjectFree (.list items)

/-- What the value of an attribute is. -/
inductive Shape
  | text
  | bool
  | number
  /-- A whole number of eight bits. -/
  | byte
  /-- A whole number of thirty-two bits. -/
  | word
  | literal
  | literals

/-- Whether a value has the shape. -/
def Shape.Holds : Shape → Json → Prop
  | text, .text _ => True
  | bool, .bool _ => True
  | number, .number _ => True
  | byte, .number (.whole i) => 0 ≤ i ∧ i < 256
  | word, .number (.whole i) => 0 ≤ i ∧ i < 4294967296
  | literal, j => ObjectFree j
  | literals, .list items => ∀ item ∈ items, ObjectFree item
  | _, _ => False

/-- What is asked of an attribute. -/
inductive Rule
  | required (shape : Shape)
  /-- It may be missing or null. -/
  | optional (shape : Shape)
  /-- It may be missing. -/
  | conditions

/-- Whether the attribute, as far as it is there, is as the rule asks. -/
def Rule.Met : Rule → Option Json → Prop
  | required shape, some j => shape.Holds j
  | required _, none => False
  | optional shape, some j => j = .null ∨ shape.Holds j
  | optional _, none => True
  | conditions, some j => ∃ items, j = .list items
  | conditions, none => True

/-- The attributes that only some kinds have. -/
def ownRules : ConditionTag → List (String × Rule)
  | .all | .nothing => []
  | .boolean => [("must", .conditions), ("should", .conditions), ("not", .conditions)]
  | .wildcard | .startsWith | .regexp => [("field", .required .text), ("value", .required .text)]
  | .fuzzy =>
    [("field", .required .text), ("value", .required .text), ("max_edits", .optional .byte),
      ("prefix_length", .optional .word), ("max_expansions", .optional .word),
      ("transpositions", .optional .bool)]
  | .term | .matching => [("field", .required .text), ("value", .required .literal)]
  | .phrase =>
    [("field", .required .text), ("value", .required .text), ("slop", .optional .word)]
  | .contains => [("field", .required .text), ("values", .required .literals)]
  | .range =>
    [("field", .required .text), ("lower", .optional .literal), ("upper", .optional .literal),
      ("include_lower", .optional .bool), ("include_upper", .optional .bool)]
  | .geoBox =>
    [("field", .required .text), ("min_latitude", .required .number),
      ("max_latitude", .required .number), ("min_longitude", .required .number),
      ("max_longitude", .required .number)]
  | .geoDistance =>
    [("field", .required .text), ("latitude", .required .number),
      ("longitude", .required .number), ("max_distance", .required .text),
      ("min_distance", .optional .text)]

/-- The attributes of each kind: its own ones, and a boost. -/
def rules (tag : ConditionTag) : List (String × Rule) :=
  ownRules tag ++ [("boost", .optional .number)]

/-- The trees that are read as conditions. -/
inductive Grammatical : Json → Prop
  | object {members : List (String × Json)} (tag : ConditionTag)
      (htag : members.lookup "type" = some (.text tag.name))
      (hknown : ∀ name ∈ Entries.names members,
        name = "type" ∨ name ∈ Entries.names (rules tag))
      (hmet : ∀ entry ∈ rules tag, entry.2.Met (members.lookup entry.1))
      (hconditions : ∀ name items, (name, Rule.conditions) ∈ rules tag →
        members.lookup name = some (.list items) → ∀ item ∈ items, Grammatical item) :
      Grammatical (.object members)

/-! ## Shapes of values -/

/-- The reader reads the values of the shape, and no others. -/
def Shape.Reads {α : Type} (shape : Shape) (read : Reader α) : Prop :=
  ∀ j, (∃ a, read j = .ok a) ↔ shape.Holds j

theorem reads_text : Shape.text.Reads readText := by
  intro j
  cases j <;> simp [readText, unfit, Shape.Holds]

theorem reads_bool : Shape.bool.Reads readBool := by
  intro j
  cases j <;> simp [readBool, unfit, Shape.Holds]

theorem reads_single : Shape.number.Reads readSingle := by
  intro j
  cases j with
  | number n => cases n <;> simp [readSingle, Shape.Holds]
  | _ => simp [readSingle, unfit, Shape.Holds]

theorem reads_double : Shape.number.Reads readDouble := by
  intro j
  cases j with
  | number n => cases n <;> simp [readDouble, Shape.Holds]
  | _ => simp [readDouble, unfit, Shape.Holds]

/-- A natural number below the limit is read. -/
theorem exists_readNat_iff {limit : Nat} {wanted : String} {j : Json} :
    (∃ n, readNat limit wanted j = .ok n) ↔
      ∃ i : Int, j = .number (.whole i) ∧ 0 ≤ i ∧ i < limit := by
  cases j with
  | number n =>
    cases n with
    | whole i =>
      by_cases hi : 0 ≤ i ∧ i < limit
      · simp [readNat, hi]
      · simp [readNat, hi]
    | _ => simp [readNat, unfit]
  | _ => simp [readNat, unfit]

theorem exists_map_iff {ε α β : Type} {x : Except ε α} {f : α → β} :
    (∃ b, x.map f = .ok b) ↔ ∃ a, x = .ok a := by
  cases x <;> simp [Except.map]

theorem reads_byte : Shape.byte.Reads readByte := by
  intro j
  rw [readByte, exists_map_iff, exists_readNat_iff]
  cases j with
  | number n => cases n <;> simp [Shape.Holds]
  | _ => simp [Shape.Holds]

theorem reads_word : Shape.word.Reads readWord := by
  intro j
  rw [readWord, exists_map_iff, exists_readNat_iff]
  cases j with
  | number n => cases n <;> simp [Shape.Holds]
  | _ => simp [Shape.Holds]

/-- A list has values if each of its items has one. -/
theorem exists_itemsOfJson?_iff {items : List Json} :
    (∃ vs, Value.itemsOfJson? items = some vs) ↔
      ∀ item ∈ items, ∃ v, Value.ofJson? item = some v := by
  induction items with
  | nil => simp [Value.itemsOfJson?]
  | cons item items ih =>
    rw [List.forall_mem_cons, ← ih, Value.itemsOfJson?]
    cases Value.ofJson? item with
    | none => simp
    | some v =>
      cases Value.itemsOfJson? items with
      | none => simp
      | some vs => simp

/-- A tree without objects has a value. -/
theorem ObjectFree.exists_value {j : Json} (h : ObjectFree j) : ∃ v, Value.ofJson? j = some v := by
  induction h with
  | list h ih =>
    obtain ⟨vs, hvs⟩ := exists_itemsOfJson?_iff.2 ih
    exact ⟨.list vs, by rw [Value.ofJson?, hvs, Option.map_some]⟩
  | _ => exact ⟨_, by rw [Value.ofJson?]⟩

mutual

/-- A tree that has a value is one without objects. -/
theorem objectFree_of_ofJson? : ∀ {j : Json}, (∃ v, Value.ofJson? j = some v) → ObjectFree j
  | .null, _ => .null
  | .bool b, _ => .bool b
  | .number n, _ => .number n
  | .text s, _ => .text s
  | .list items, h => by
    obtain ⟨v, hv⟩ := h
    rw [Value.ofJson?, Option.map_eq_some_iff] at hv
    obtain ⟨vs, hvs, -⟩ := hv
    exact .list (objectFree_of_itemsOfJson? (exists_itemsOfJson?_iff.1 ⟨vs, hvs⟩))
  | .object members, h => by
    obtain ⟨v, hv⟩ := h
    simp [Value.ofJson?] at hv

theorem objectFree_of_itemsOfJson? : ∀ {items : List Json},
    (∀ item ∈ items, ∃ v, Value.ofJson? item = some v) → ∀ item ∈ items, ObjectFree item
  | [], _ => List.forall_mem_nil _
  | item :: items, h => by
    rw [List.forall_mem_cons] at h ⊢
    exact ⟨objectFree_of_ofJson? h.1, objectFree_of_itemsOfJson? h.2⟩

end

theorem reads_literal : Shape.literal.Reads readLiteral := by
  intro j
  have hread : (∃ v, readLiteral j = .ok v) ↔ ∃ v, Value.ofJson? j = some v := by
    unfold readLiteral
    cases Value.ofJson? j with
    | none => simp
    | some v => simp
  rw [hread]
  exact ⟨objectFree_of_ofJson?, ObjectFree.exists_value⟩

theorem exists_mapM_iff {ε α β : Type} {f : α → Except ε β} {xs : List α} :
    (∃ ys, xs.mapM f = .ok ys) ↔ ∀ x ∈ xs, ∃ y, f x = .ok y := by
  induction xs with
  | nil => simp [pure, Except.pure]
  | cons x xs ih =>
    rw [List.forall_mem_cons, ← ih, List.mapM_cons]
    simp [exists_bind_eq_ok, pure, Except.pure]

theorem reads_literals : Shape.literals.Reads readLiterals := by
  intro j
  rw [readLiterals, exists_bind_eq_ok]
  cases j with
  | list items =>
    simp only [readList, Except.ok.injEq, exists_eq_left', exists_mapM_iff]
    exact forall₂_congr fun item _ => reads_literal item
  | _ => simp [readList, unfit, Shape.Holds]

/-! ## Attributes -/

/-- The attribute is read if it is as the rule asks, and only then. -/
def Rule.Reads {α : Type} (rule : Rule) (a : Attribute α) : Prop :=
  ∀ members, (∃ x, a.get members = .ok x) ↔ rule.Met (members.lookup a.name)

theorem Rule.reads_required {α : Type} {shape : Shape} {read : Reader α} (name : String)
    (h : shape.Reads read) : (required shape).Reads (.required name read) := by
  intro members
  simp only [Attribute.get, Attribute.required]
  cases members.lookup name with
  | none => simp [Met]
  | some j => exact h j

theorem Rule.reads_optional {α : Type} {shape : Shape} {read : Reader α} (name : String)
    (h : shape.Reads read) : (optional shape).Reads (.optional name read) := by
  intro members
  simp only [Attribute.get, Attribute.optional]
  cases members.lookup name with
  | none => simp [Met]
  | some j =>
    by_cases hj : j = .null
    · subst hj
      simp [readOptional, Met]
    · have hread : readOptional read j = (read j).map some := by
        cases j with
        | null => exact absurd rfl hj
        | _ => rw [readOptional]; simp
      simp only [hread, exists_map_iff, Met, hj, false_or]
      exact h j

theorem reads_field : (Rule.required .text).Reads fieldAttribute :=
  Rule.reads_required _ reads_text

theorem reads_boost : (Rule.optional .number).Reads boostAttribute :=
  Rule.reads_optional _ reads_single

/-- The check is named for the attribute, and passes what the rule asks. -/
def Checks (check : String × Reader Unit) (entry : String × Rule) : Prop :=
  check.1 = entry.1 ∧ ∀ j, entry.2.Met (some j) → check.2 j = .ok ()

theorem Rule.Reads.checks {α : Type} {rule : Rule} {a : Attribute α} (h : rule.Reads a) :
    Checks a.check (a.name, rule) := by
  refine ⟨rfl, fun j hj => ?_⟩
  have hlookup : [(a.name, j)].lookup a.name = some j := by simp
  have hget : a.get [(a.name, j)] = a.read j := by
    simp only [Attribute.get, hlookup]
  have hread := (h [(a.name, j)]).2
  rw [hlookup, hget] at hread
  obtain ⟨x, hx⟩ := hread hj
  exact check_eq_ok hx

/-! ## Leaves -/

theorem exists_pure_eq_ok {ε α : Type} {a : α} : (∃ b, (pure a : Except ε α) = .ok b) ↔ True := by
  simp [pure, Except.pure]

/-- Members are read if their attributes are as the rules ask, and only then. -/
def ReadsAll {α : Type} (read : List (String × Json) → Except Fault α)
    (entries : List (String × Rule)) : Prop :=
  ∀ members, (∃ x, read members = .ok x) ↔
    ∀ entry ∈ entries, entry.2.Met (members.lookup entry.1)

theorem readsAll_pure {α : Type} (a : α) : ReadsAll (fun _ => pure a) [] := by
  intro members
  rw [exists_pure_eq_ok, true_iff]
  exact List.forall_mem_nil _

/-- One attribute is read, and then the others, whatever was read. -/
theorem Rule.Reads.bind {α β : Type} {rule : Rule} {a : Attribute α} (h : rule.Reads a)
    {rest : α → List (String × Json) → Except Fault β} {entries : List (String × Rule)}
    (hrest : ∀ x, ReadsAll (rest x) entries) :
    ReadsAll (fun members => a.get members >>= fun x => rest x members)
      ((a.name, rule) :: entries) := by
  intro members
  rw [exists_bind_eq_ok, List.forall_mem_cons, ← h members, ← exists_and_right]
  exact exists_congr fun x => and_congr_right fun _ => hrest x members

/-- The reader asks what the rules ask of the attributes. -/
structure LeafReader.Follows (reader : LeafReader) (entries : List (String × Rule)) : Prop where
  checks : List.Forall₂ Checks reader.checks entries
  read : ReadsAll reader.read entries

theorem reads_textAttribute : (Rule.required .text).Reads textAttribute :=
  Rule.reads_required _ reads_text

theorem follows_patternReader (form : PatternForm) :
    (patternReader form).Follows [("field", .required .text), ("value", .required .text)] where
  checks := .cons reads_field.checks (.cons reads_textAttribute.checks .nil)
  read := reads_field.bind fun _ => reads_textAttribute.bind fun _ => readsAll_pure _

theorem follows_fuzzyReader : fuzzyReader.Follows (ownRules .fuzzy) := by
  have hedits := Rule.reads_optional "max_edits" reads_byte
  have hprefix := Rule.reads_optional "prefix_length" reads_word
  have hexpansions := Rule.reads_optional "max_expansions" reads_word
  have htranspositions := Rule.reads_optional "transpositions" reads_bool
  constructor
  · exact .cons reads_field.checks (.cons reads_textAttribute.checks (.cons hedits.checks
      (.cons hprefix.checks (.cons hexpansions.checks (.cons htranspositions.checks .nil)))))
  · exact reads_field.bind fun _ => reads_textAttribute.bind fun _ => hedits.bind fun _ =>
      hprefix.bind fun _ => hexpansions.bind fun _ => htranspositions.bind fun _ =>
      readsAll_pure _

theorem follows_literalReader (form : LiteralForm) :
    (literalReader form).Follows [("field", .required .text), ("value", .required .literal)] := by
  have hvalue := Rule.reads_required "value" reads_literal
  constructor
  · exact .cons reads_field.checks (.cons hvalue.checks .nil)
  · exact reads_field.bind fun _ => hvalue.bind fun _ => readsAll_pure _

theorem follows_phraseReader : phraseReader.Follows (ownRules .phrase) := by
  have hslop := Rule.reads_optional "slop" reads_word
  constructor
  · exact .cons reads_field.checks (.cons reads_textAttribute.checks (.cons hslop.checks .nil))
  · exact reads_field.bind fun _ => reads_textAttribute.bind fun _ => hslop.bind fun _ =>
      readsAll_pure _

theorem follows_containsReader : containsReader.Follows (ownRules .contains) := by
  have hvalues := Rule.reads_required "values" reads_literals
  constructor
  · exact .cons reads_field.checks (.cons hvalues.checks .nil)
  · exact reads_field.bind fun _ => hvalues.bind fun _ => readsAll_pure _

theorem follows_rangeReader : rangeReader.Follows (ownRules .range) := by
  have hlower := Rule.reads_optional "lower" reads_literal
  have hupper := Rule.reads_optional "upper" reads_literal
  have hincludeLower := Rule.reads_optional "include_lower" reads_bool
  have hincludeUpper := Rule.reads_optional "include_upper" reads_bool
  constructor
  · exact .cons reads_field.checks (.cons hlower.checks (.cons hupper.checks
      (.cons hincludeLower.checks (.cons hincludeUpper.checks .nil))))
  · exact reads_field.bind fun _ => hlower.bind fun _ => hupper.bind fun _ =>
      hincludeLower.bind fun _ => hincludeUpper.bind fun _ => readsAll_pure _

theorem follows_geoBoxReader : geoBoxReader.Follows (ownRules .geoBox) := by
  have hminLatitude := Rule.reads_required "min_latitude" reads_double
  have hmaxLatitude := Rule.reads_required "max_latitude" reads_double
  have hminLongitude := Rule.reads_required "min_longitude" reads_double
  have hmaxLongitude := Rule.reads_required "max_longitude" reads_double
  constructor
  · exact .cons reads_field.checks (.cons hminLatitude.checks (.cons hmaxLatitude.checks
      (.cons hminLongitude.checks (.cons hmaxLongitude.checks .nil))))
  · exact reads_field.bind fun _ => hminLatitude.bind fun _ => hmaxLatitude.bind fun _ =>
      hminLongitude.bind fun _ => hmaxLongitude.bind fun _ => readsAll_pure _

theorem follows_geoDistanceReader : geoDistanceReader.Follows (ownRules .geoDistance) := by
  have hlatitude := Rule.reads_required "latitude" reads_double
  have hlongitude := Rule.reads_required "longitude" reads_double
  have hmaximum := Rule.reads_required "max_distance" reads_text
  have hminimum := Rule.reads_optional "min_distance" reads_text
  constructor
  · exact .cons reads_field.checks (.cons hlatitude.checks (.cons hlongitude.checks
      (.cons hmaximum.checks (.cons hminimum.checks .nil))))
  · exact reads_field.bind fun _ => hlatitude.bind fun _ => hlongitude.bind fun _ =>
      hmaximum.bind fun _ => hminimum.bind fun _ => readsAll_pure _

/-- Each kind of leaves is read by a reader that follows its rules. -/
theorem follows_form {tag : ConditionTag} {reader : LeafReader} (h : form tag = .leaf reader) :
    reader.Follows (ownRules tag) := by
  cases tag with
  | all => cases h
  | nothing => cases h
  | boolean => cases h
  | wildcard => cases h; exact follows_patternReader .wildcard
  | startsWith => cases h; exact follows_patternReader .startsWith
  | regexp => cases h; exact follows_patternReader .regexp
  | fuzzy => cases h; exact follows_fuzzyReader
  | term => cases h; exact follows_literalReader .term
  | matching => cases h; exact follows_literalReader .matching
  | phrase => cases h; exact follows_phraseReader
  | contains => cases h; exact follows_containsReader
  | range => cases h; exact follows_rangeReader
  | geoBox => cases h; exact follows_geoBoxReader
  | geoDistance => cases h; exact follows_geoDistanceReader

variable {members : List (String × Json)}

/-- A check that is found is one of a rule. -/
theorem exists_rule_of_lookup {checks : List (String × Reader Unit)}
    {entries : List (String × Rule)} (h : List.Forall₂ Checks checks entries) {name : String}
    {check : Reader Unit} (hcheck : checks.lookup name = some check) :
    ∃ rule, (name, rule) ∈ entries ∧ ∀ j, rule.Met (some j) → check j = .ok () := by
  induction h with
  | nil => cases hcheck
  | @cons first entry checks entries hfirst hrest ih =>
    rw [List.lookup_cons] at hcheck
    by_cases hname : name = first.1
    · rw [hname, beq_self_eq_true] at hcheck
      cases hcheck
      refine ⟨entry.2, ?_, hfirst.2⟩
      rw [hname, hfirst.1]
      exact List.mem_cons_self ..
    · rw [beq_false_of_ne hname] at hcheck
      obtain ⟨rule, hrule, hmet⟩ := ih hcheck
      exact ⟨rule, List.mem_cons_of_mem _ hrule, hmet⟩

/-- A leaf is read if its attributes are as the rules ask. -/
theorem exists_leafOfMembers_iff {reader : LeafReader} {entries : List (String × Rule)}
    (h : reader.Follows entries) (hnames : (Entries.names members).Nodup) :
    (∃ d, leafOfMembers reader members = .ok d) ↔
      ∀ entry ∈ entries ++ [("boost", .optional .number)],
        entry.2.Met (members.lookup entry.1) := by
  have hread : ((∃ l, reader.read members = .ok l) ∧
      ∃ boost, boostAttribute.get members = .ok boost) ↔
      ∀ entry ∈ entries ++ [("boost", .optional .number)],
        entry.2.Met (members.lookup entry.1) := by
    rw [List.forall_mem_append, List.forall_mem_singleton]
    exact and_congr (h.read members) (reads_boost members)
  simp only [leafOfMembers, exists_bind_eq_ok, exists_pure_eq_ok, and_true, exists_and_right, hread]
  refine and_iff_right_of_imp fun hmet => ⟨(), checkAll_of_forall fun m hm check hcheck => ?_⟩
  have hchecks : List.Forall₂ Checks (boostAttribute.check :: reader.checks)
      (("boost", .optional .number) :: entries) := .cons reads_boost.checks h.checks
  obtain ⟨rule, hrule, hpass⟩ := exists_rule_of_lookup hchecks hcheck
  have hmember : rule.Met (members.lookup m.1) := by
    refine hmet (m.1, rule) ?_
    rw [List.mem_append, List.mem_singleton]
    exact (List.mem_cons.1 hrule).symm
  rw [(Entries.lookup_eq_some_iff hnames).2 hm] at hmember
  exact hpass m.2 hmember

/-! ## Lists of conditions -/

/-- The tree is read as a condition. -/
def IsRead (j : Json) : Prop := ∃ d, Draft.ofJson j = .ok d

theorem exists_listOfJson_iff {items : List Json} :
    (∃ ds, Draft.listOfJson items = .ok ds) ↔ ∀ item ∈ items, IsRead item := by
  induction items with
  | nil => simp [Draft.listOfJson]
  | cons item items ih =>
    rw [List.forall_mem_cons, ← ih, Draft.listOfJson]
    simp only [exists_bind_eq_ok, exists_pure_eq_ok, and_true, exists_and_right]
    rfl

/-- A value as a list of conditions. -/
def conditionsOf (value : Json) : Except Fault (List Draft) :=
  match value with
  | .list items => Draft.listOfJson items
  | _ => unfit "a sequence" value

theorem exists_conditionsOf_iff {value : Json} :
    (∃ ds, conditionsOf value = .ok ds) ↔
      ∃ items, value = .list items ∧ ∀ item ∈ items, IsRead item := by
  cases value with
  | list items => simp [conditionsOf, exists_listOfJson_iff]
  | _ => simp [conditionsOf, unfit]

/-- A member of a boolean condition is read: the boost as a number, the lists as conditions. -/
def IsReadMember (m : String × Json) : Prop :=
  (m.1 = "boost" → (Rule.optional .number).Met (some m.2)) ∧
    (m.1 ∈ ["must", "should", "not"] → ∃ items, m.2 = .list items ∧ ∀ item ∈ items, IsRead item)

/-- The parts of a boolean condition are read one member at a time. -/
theorem exists_booleanOfMembers_iff {parts : BooleanParts} :
    (∃ parts', booleanOfMembers parts members = .ok parts') ↔ ∀ m ∈ members, IsReadMember m := by
  induction members generalizing parts with
  | nil => simp [booleanOfMembers]
  | cons m members ih =>
    obtain ⟨name, value⟩ := m
    have hboost : (∃ boost, boostAttribute.read value = .ok boost) ↔
        (Rule.optional .number).Met (some value) := reads_boost [("boost", value)]
    -- What is done with a list of conditions is the same for all three of them.
    have hlist : ∀ set : List Draft → BooleanParts,
        (∃ parts', (conditionsOf value >>= fun ds => booleanOfMembers (set ds) members)
            = .ok parts') ↔
          (∃ items, value = .list items ∧ ∀ item ∈ items, IsRead item) ∧
            ∀ m ∈ members, IsReadMember m := by
      intro set
      rw [exists_bind_eq_ok, ← exists_conditionsOf_iff, ← exists_and_right]
      exact exists_congr fun ds => and_congr_right fun _ => ih
    rw [List.forall_mem_cons, booleanOfMembers.eq_def]
    dsimp only
    split
    · simp [exists_bind_eq_ok, ih, IsReadMember, ← hboost]
    · refine (hlist fun ds => { parts with must := ds }).trans (and_congr_left' ?_)
      simp [IsReadMember]
    · refine (hlist fun ds => { parts with should := ds }).trans (and_congr_left' ?_)
      simp [IsReadMember]
    · refine (hlist fun ds => { parts with not := ds }).trans (and_congr_left' ?_)
      simp [IsReadMember]
    · rename_i hboost hmust hshould hnot
      have hread : IsReadMember (name, value) := by
        refine ⟨fun hname => (hboost hname).elim, fun hname => ?_⟩
        simp only [List.mem_cons, List.not_mem_nil, or_false] at hname
        rcases hname with hname | hname | hname
        · exact (hmust hname).elim
        · exact (hshould hname).elim
        · exact (hnot hname).elim
      rw [and_iff_right hread]
      exact ih

/-! ## Objects -/

/-- How the members of an object are read in the form of a kind. -/
def readAs (f : Form) (members : List (String × Json)) : Except Fault Draft :=
  match f with
  | .constant make => (boostAttribute.get members).map make
  | .boolean => do
    let parts ← booleanOfMembers {} members
    pure (.boolean parts.boost parts.must parts.should parts.not)
  | .leaf reader => leafOfMembers reader members

theorem ofName?_eq_some {name : String} {tag : ConditionTag}
    (h : ConditionTag.ofName? name = some tag) : name = tag.name := by
  have hname := List.find?_some h
  simpa using (eq_of_beq hname).symm

/-- Only objects are read as conditions. -/
theorem exists_object_of_isRead {j : Json} (h : IsRead j) : ∃ members, j = .object members := by
  obtain ⟨d, hd⟩ := h
  cases j with
  | object members => exact ⟨members, rfl⟩
  | _ => simp [Draft.ofJson] at hd

/-- A tagged object is one whose tag is a text. -/
theorem tagged_eq_ok {subject : Subject} {fault : Fault} {t : Tagged}
    (h : Tagged.ofJson subject (.object members) fault = .ok t) :
    members.lookup "type" = some (.text t.tag) ∧ t.members = members := by
  unfold Tagged.ofJson at h
  dsimp only at h
  split at h
  · cases h
    exact ⟨‹_›, rfl⟩
  · cases h
  · cases h

/-- The members are known if there is none that is not. -/
theorem only_eq_ok {t : Tagged} {subject : Subject} {names : List String} :
    t.only subject names = .ok () ↔ unknown? names t.members = none := by
  unfold Tagged.only
  cases unknown? names t.members with
  | none => simp
  | some name => simp

/-- An object is read if its tag names a kind, its attributes are those of the kind, and it is read
in the form of the kind. -/
theorem isRead_object_iff :
    IsRead (.object members) ↔ ∃ tag : ConditionTag,
      members.lookup "type" = some (.text tag.name) ∧
        unknown? (form tag).attributes members = none ∧
        ∃ d, readAs (form tag) members = .ok d := by
  constructor
  · rintro ⟨d, h⟩
    rw [Draft.ofJson, bind_eq_ok] at h
    obtain ⟨t, ht, h⟩ := h
    obtain ⟨htype, hmembers⟩ := tagged_eq_ok ht
    cases hname : ConditionTag.ofName? t.tag with
    | none => simp [hname] at h
    | some tag =>
      simp only [hname, bind_eq_ok] at h
      obtain ⟨_, honly, h⟩ := h
      rw [only_eq_ok, hmembers] at honly
      rw [Tagged.within, mapError_eq_ok] at h
      rw [ofName?_eq_some hname] at htype
      exact ⟨tag, htype, honly, d, h⟩
  · rintro ⟨tag, htype, hknown, d, h⟩
    refine ⟨d, ?_⟩
    rw [Draft.ofJson_object tag htype hknown, mapError_eq_ok]
    exact h

/-- The attributes of a kind are those of its rules. -/
theorem mem_attributes_iff (tag : ConditionTag) (name : String) :
    name ∈ (form tag).attributes ↔ name ∈ Entries.names (rules tag) := by
  cases tag with
  | boolean =>
    simp only [form, Form.attributes, rules, ownRules, Entries.names]
    simp
    grind
  | _ => exact Iff.rfl

/-- No member is unknown if each one is the tag or has a known name. -/
theorem unknown?_eq_none_iff {names : List String} :
    unknown? names members = none ↔
      ∀ name ∈ Entries.names members, name = "type" ∨ name ∈ names := by
  rw [unknown?, Option.map_eq_none_iff, List.find?_eq_none, Entries.names, List.forall_mem_map]
  refine forall₂_congr fun m _ => ?_
  by_cases htype : m.1 = "type"
  · simp [htype]
  · simp [htype]

/-! ## The grammar is what is read -/

/-- Only boolean conditions have lists of conditions. -/
theorem mem_rules_conditions_iff {tag : ConditionTag} {name : String} :
    (name, Rule.conditions) ∈ rules tag ↔ tag = .boolean ∧ name ∈ ["must", "should", "not"] := by
  cases tag <;> simp [rules, ownRules]

/-- The attributes of a boolean condition are its lists and its boost. -/
theorem mem_rules_boolean_iff {entry : String × Rule} :
    entry ∈ rules .boolean ↔
      (entry.1 ∈ ["must", "should", "not"] ∧ entry.2 = .conditions) ∨
        entry = ("boost", .optional .number) := by
  obtain ⟨name, rule⟩ := entry
  simp only [rules, ownRules, List.cons_append, List.nil_append, List.mem_cons, List.not_mem_nil,
    or_false, Prod.mk.injEq]
  grind

/-- The members are as the rules of a kind ask, and what stands in lists of conditions is read. -/
def IsReadBy (tag : ConditionTag) (members : List (String × Json)) : Prop :=
  (∀ entry ∈ rules tag, entry.2.Met (members.lookup entry.1)) ∧
    ∀ name items, (name, Rule.conditions) ∈ rules tag →
      members.lookup name = some (.list items) → ∀ item ∈ items, IsRead item

/-- The members of a boolean condition are read if they are as the rules ask. -/
theorem forall_isReadMember_iff (hnames : (Entries.names members).Nodup) :
    (∀ m ∈ members, IsReadMember m) ↔ IsReadBy .boolean members := by
  constructor
  · intro h
    constructor
    · intro entry hentry
      obtain ⟨name, rule⟩ := entry
      cases hlookup : members.lookup name with
      | none =>
        rcases mem_rules_boolean_iff.1 hentry with ⟨-, rfl⟩ | hboost
        · trivial
        · cases hboost
          trivial
      | some j =>
        have hmember := h (name, j) ((Entries.lookup_eq_some_iff hnames).1 hlookup)
        rcases mem_rules_boolean_iff.1 hentry with ⟨hname, rfl⟩ | hboost
        · obtain ⟨items, hitems, -⟩ := hmember.2 hname
          exact ⟨items, hitems⟩
        · cases hboost
          exact hmember.1 rfl
    · intro name items hrule hlookup
      have hmember := h (name, .list items) ((Entries.lookup_eq_some_iff hnames).1 hlookup)
      obtain ⟨_, hitems, hread⟩ := hmember.2 (mem_rules_conditions_iff.1 hrule).2
      cases hitems
      exact hread
  · rintro ⟨hmet, hconditions⟩ ⟨name, j⟩ hm
    have hlookup := (Entries.lookup_eq_some_iff hnames).2 hm
    constructor
    · rintro rfl
      have hboost := hmet ("boost", .optional .number) (mem_rules_boolean_iff.2 (.inr rfl))
      rwa [hlookup] at hboost
    · intro hname
      have hrule : (name, Rule.conditions) ∈ rules .boolean :=
        mem_rules_conditions_iff.2 ⟨rfl, hname⟩
      have hlist := hmet (name, .conditions) hrule
      rw [hlookup] at hlist
      obtain ⟨items, rfl⟩ := hlist
      exact ⟨items, rfl, hconditions name items hrule hlookup⟩

/-- The members are read in the form of a kind if they are as its rules ask. -/
theorem exists_readAs_iff {tag : ConditionTag} (hnames : (Entries.names members).Nodup) :
    (∃ d, readAs (form tag) members = .ok d) ↔ IsReadBy tag members := by
  have hlists : tag ≠ .boolean → ∀ name items, (name, Rule.conditions) ∈ rules tag →
      members.lookup name = some (.list items) → ∀ item ∈ items, IsRead item := by
    intro htag name items hrule
    exact absurd (mem_rules_conditions_iff.1 hrule).1 htag
  cases hform : form tag with
  | constant make =>
    have hrules : rules tag = [("boost", .optional .number)] := by
      cases tag <;> first | rfl | cases hform
    have htag : tag ≠ .boolean := by
      rintro rfl
      cases hform
    rw [readAs, exists_map_iff, reads_boost members, IsReadBy, and_iff_left (hlists htag), hrules,
      List.forall_mem_singleton]
    rfl
  | boolean =>
    obtain rfl : tag = .boolean := by
      cases tag <;> first | rfl | cases hform
    simp only [readAs, exists_bind_eq_ok, exists_pure_eq_ok, and_true]
    rw [exists_booleanOfMembers_iff, forall_isReadMember_iff hnames]
  | leaf reader =>
    have htag : tag ≠ .boolean := by
      rintro rfl
      cases hform
    rw [readAs, exists_leafOfMembers_iff (follows_form hform) hnames, IsReadBy,
      and_iff_left (hlists htag)]
    rfl

/-- What is no object is neither read nor in the grammar. -/
theorem isRead_iff_of_not_object {j : Json} (hj : ∀ members, j ≠ .object members) :
    IsRead j ↔ Grammatical j := by
  constructor
  · intro h
    obtain ⟨members, hmembers⟩ := exists_object_of_isRead h
    exact absurd hmembers (hj members)
  · intro h
    cases h with
    | object tag => exact absurd rfl (hj _)

/-- An object is read if it belongs to the grammar, as far as this holds of the conditions in it. -/
theorem isRead_iff_of_members (hnames : (Entries.names members).Nodup)
    (hitems : ∀ name items, (name, .list items) ∈ members →
      ∀ item ∈ items, (IsRead item ↔ Grammatical item)) :
    IsRead (.object members) ↔ Grammatical (.object members) := by
  have hitem : ∀ {name items}, members.lookup name = some (.list items) →
      ∀ item ∈ items, (IsRead item ↔ Grammatical item) := fun hlookup =>
    hitems _ _ ((Entries.lookup_eq_some_iff hnames).1 hlookup)
  rw [isRead_object_iff]
  constructor
  · rintro ⟨tag, htype, hknown, hread⟩
    simp only [unknown?_eq_none_iff, mem_attributes_iff] at hknown
    obtain ⟨hmet, hconditions⟩ := (exists_readAs_iff hnames).1 hread
    refine .object tag htype hknown hmet fun name items hrule hlookup item hmem => ?_
    exact (hitem hlookup item hmem).1 (hconditions name items hrule hlookup item hmem)
  · rintro ⟨tag, htype, hknown, hmet, hconditions⟩
    refine ⟨tag, htype, ?_, (exists_readAs_iff hnames).2 ⟨hmet, ?_⟩⟩
    · simpa only [unknown?_eq_none_iff, mem_attributes_iff] using hknown
    · intro name items hrule hlookup item hmem
      exact (hitem hlookup item hmem).2 (hconditions name items hrule hlookup item hmem)

/-- A tree in whose objects the names differ is read if it belongs to the grammar. The second part
carries the induction through the lists of conditions. -/
theorem isRead_iff_of_distinct {j : Json} (hj : j.Distinct) :
    (IsRead j ↔ Grammatical j) ∧
      ∀ items, j = .list items → ∀ item ∈ items, (IsRead item ↔ Grammatical item) := by
  induction hj with
  | list h ih =>
    refine ⟨isRead_iff_of_not_object (by simp), fun items heq item hitem => ?_⟩
    cases heq
    exact (ih item hitem).1
  | object hnames h ih =>
    refine ⟨isRead_iff_of_members hnames fun name items hmem => ?_, by simp⟩
    exact (ih name (.list items) hmem).2 items rfl
  | _ => exact ⟨isRead_iff_of_not_object (by simp), by simp⟩

/-! ## No attribute is dropped -/

/-- The first tree stands in the place of a condition inside the second one. -/
inductive Within : Json → Json → Prop
  | root (j : Json) : Within j j
  | member {members : List (String × Json)} {name : String} {items : List Json} {item j : Json}
      (hname : name ∈ ["must", "should", "not"]) (hlist : (name, .list items) ∈ members)
      (hitem : item ∈ items) (h : Within j item) : Within j (.object members)

/-- The object has a known tag, and knows all its other members by this tag. -/
def IsKnown (j : Json) : Prop :=
  ∃ members, ∃ tag : ConditionTag, j = .object members ∧
    members.lookup "type" = some (.text tag.name) ∧
    ∀ name ∈ Entries.names members, name = "type" ∨ name ∈ Entries.names (rules tag)

/-- An attribute with the name of a list of conditions is one. -/
theorem mem_rules_of_mem_names {tag : ConditionTag} {name : String}
    (hname : name ∈ ["must", "should", "not"]) (h : name ∈ Entries.names (rules tag)) :
    (name, Rule.conditions) ∈ rules tag := by
  have every : ∀ tag : ConditionTag, tag ≠ .boolean →
      ∀ name ∈ ["must", "should", "not"], name ∉ Entries.names (rules tag) := by
    intro tag
    cases tag <;> decide
  by_cases htag : tag = .boolean
  · exact mem_rules_conditions_iff.2 ⟨htag, hname⟩
  · exact absurd h (every tag htag name hname)

/-- In a tree of the grammar all tags and attributes are known. -/
theorem Grammatical.isKnown {inner j : Json} (hwithin : Within inner j) (hj : j.Distinct)
    (h : Grammatical j) : IsKnown inner := by
  induction hwithin with
  | root j =>
    cases h with
    | object tag htag hknown => exact ⟨_, tag, rfl, htag, hknown⟩
  | @member members name items item inner hname hlist hitem _ ih =>
    cases hj with
    | object hnames hvalues =>
      cases h with
      | object tag htag hknown hmet hconditions =>
        have hitems := hvalues name (.list items) hlist
        cases hitems with
        | list hdistinct =>
          have hrule : (name, Rule.conditions) ∈ rules tag := by
            refine mem_rules_of_mem_names hname ?_
            rcases hknown name (List.mem_map_of_mem hlist) with htype | hmem
            · subst htype
              exact absurd hname (by decide)
            · exact hmem
          have hlookup := (Entries.lookup_eq_some_iff hnames).2 hlist
          exact ih (hdistinct item hitem) (hconditions name items hrule hlookup item hitem)

/-- A tree in whose objects the names differ, as in all that are parsed (`Json.distinct_of_parse`),
is read as a condition if it belongs to the grammar, and only then. A rejection is reported as one
of serialization, and in a tree that is read there is no unknown tag and no unknown attribute at
any depth. -/
theorem ofJson_iff_grammatical {j : Json} (hj : j.Distinct) :
    ((∃ d, Draft.ofJson j = .ok d) ↔ Grammatical j) ∧
      (∀ fault, Draft.ofJson j = .error fault → (report fault).errorClass = .serialization) ∧
      ∀ d, Draft.ofJson j = .ok d → ∀ inner, Within inner j → IsKnown inner := by
  have hread := (isRead_iff_of_distinct hj).1
  refine ⟨hread, fun _ _ => rfl, fun d hd inner hwithin => ?_⟩
  exact (hread.1 ⟨d, hd⟩).isKnown hwithin hj

/-- A condition on a field, as it stands in a list. -/
def sampleInner : Json :=
  .object [("type", .text "term"), ("field", .text "code"), ("value", .list [.null, .text "a"])]

/-- A condition with a list of one other condition. -/
def sampleOuter : Json :=
  .object [("not", .list [sampleInner]), ("boost", .null), ("type", .text "boolean")]

theorem distinct_sampleOuter : sampleOuter.Distinct := by
  have hlist : Json.Distinct (.list [.null, .text "a"]) := by
    refine .list fun item hitem => ?_
    simp only [List.mem_cons, List.not_mem_nil, or_false] at hitem
    rcases hitem with rfl | rfl
    · exact .null
    · exact .text _
  have hinner : sampleInner.Distinct := by
    refine .object (by decide) fun name value hmem => ?_
    simp only [List.mem_cons, List.not_mem_nil, or_false, Prod.mk.injEq] at hmem
    rcases hmem with ⟨-, rfl⟩ | ⟨-, rfl⟩ | ⟨-, rfl⟩
    · exact .text _
    · exact .text _
    · exact hlist
  refine .object (by decide) fun name value hmem => ?_
  simp only [List.mem_cons, List.not_mem_nil, or_false, Prod.mk.injEq] at hmem
  rcases hmem with ⟨-, rfl⟩ | ⟨-, rfl⟩ | ⟨-, rfl⟩
  · exact .list fun item hitem => List.mem_singleton.1 hitem ▸ hinner
  · exact .null
  · exact .text _

/-- The outer condition is read, so it is of the grammar, and the inner one is known. -/
theorem ofJson_iff_grammatical_nested :
    sampleOuter.Distinct ∧ Grammatical sampleOuter ∧ Within sampleInner sampleOuter ∧
      IsKnown sampleInner := by
  have hwithin : Within sampleInner sampleOuter :=
    .member (show "not" ∈ ["must", "should", "not"] by decide) (List.mem_cons_self ..)
      (List.mem_cons_self ..) (.root sampleInner)
  have hread : Draft.ofJson sampleOuter = .ok (.boolean none [] []
      [.leaf none (.literal .term "code" (.list [.null, .text "a"]))]) := rfl
  obtain ⟨hgrammar, -, hknown⟩ := ofJson_iff_grammatical distinct_sampleOuter
  exact ⟨distinct_sampleOuter, hgrammar.1 ⟨_, hread⟩, hwithin, hknown _ hread _ hwithin⟩

end ColumnIndex.Condition
