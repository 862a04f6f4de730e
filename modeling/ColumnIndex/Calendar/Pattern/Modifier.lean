import ColumnIndex.Calendar.Pattern

/-!
# The modifiers of a component

A modifier is a part of the form `key:value`. The kind of a component says which keys it has and
which values each of them takes; of two modifiers with one key the later one counts.

## Main definitions

* `Pattern.Modifier` — a key and a value, and `Modifier.parse`, which reads them from a part.
* `Pattern.families` — all kinds of components, with their modifiers.
* `Pattern.Component.ofParts` — the component with a name and modifiers.
* `Pattern.Item.ofParts` — the item that is written in a pair of brackets.
-/
namespace ColumnIndex.Pattern

/-- A modifier as it stands in the pattern, with the bytes where its key and its value start. -/
structure Modifier where
  key : List Char
  keyIndex : Nat
  value : List Char
  valueIndex : Nat

-- The sum of no numbers is the numeral zero.
attribute [local instance (high)] Zero.ofOfNat0

/-- How many bytes the characters take. -/
def byteLength (cs : List Char) : Nat := (cs.map Char.utf8Size).sum

/-- Whether the characters spell the word in any case. -/
def spells (word : String) (cs : List Char) : Bool :=
  cs.map Char.toLower == word.toList

/-- The modifier that a part spells. A missing value is a fault of the colon. -/
def Modifier.parse (text : List Char) (index : Nat) : Except Fault Modifier :=
  let key := text.takeWhile (· ≠ ':')
  match text.dropWhile (· ≠ ':') with
  | [] => .error (.badModifier (String.ofList text) index)
  | _ :: value =>
    if key.isEmpty then .error (.badModifier "" index)
    else if value.isEmpty then .error (.badModifier "" (index + byteLength key))
    else .ok ⟨key, index, value, index + byteLength key + 1⟩

/-- The choice that the value of a modifier names. -/
def Modifier.choose {α : Type} (m : Modifier) (choices : List (String × α)) : Except Fault α :=
  match choices.find? fun choice => spells choice.1 m.value with
  | some choice => .ok choice.2
  | none => .error (.badModifier (String.ofList m.value) m.valueIndex)

/-- What the modifiers of a component settle. A component looks only at what concerns its kind. -/
structure Options where
  padding : Padding := .zero
  month : MonthForm := .number
  weekday : WeekdayForm := .long
  week : WeekForm := .iso
  year : YearForm := .full
  twelve : Bool := false
  caseSensitive : Bool := true
  oneIndexed : Bool := true
  upper : Bool := true
  signMandatory : Bool := false
  byWeeks : Bool := false
  digits : Option Nat := none
  precision : Nat := 0
  count : Option Nat := none
  discards : Bool := false

/-- The two values of a modifier that says yes or no. -/
def yesOrNo : List (String × Bool) := [("false", false), ("true", true)]

/-- How a modifier changes the options of a component. -/
abbrev Setter := Options → Modifier → Except Fault Options

/-- A modifier that chooses among named values. -/
def choice {α : Type} (choices : List (String × α)) (set : Options → α → Options) : Setter :=
  fun options m => (m.choose choices).map (set options)

/-- The modifier that chooses what fills up a number. -/
def paddingSetter : String × Setter :=
  ("padding", choice [("space", .space), ("zero", .zero), ("none", .none)]
    fun o p => { o with padding := p })

/-- The modifier that chooses whether the case of letters matters. -/
def caseSetter : String × Setter :=
  ("case_sensitive", choice yesOrNo fun o b => { o with caseSensitive := b })

/-- The modifier that chooses whether a sign must be there. -/
def signSetter : String × Setter :=
  ("sign", choice [("automatic", false), ("mandatory", true)]
    fun o b => { o with signMandatory := b })

/-- The count of bytes to pass over: a positive number of sixteen bits. -/
def countSetter : String × Setter :=
  ("count", fun options m =>
    let digits := match m.value with
      | '+' :: rest => rest
      | value => value
    let count := digits.foldl (fun n c => 10 * n + (c.toNat - 48)) 0
    if digits.isEmpty || !digits.all (fun c => '0' ≤ c && c ≤ '9') || count = 0
        || 65536 ≤ count then
      .error (.badModifier (String.ofList m.value) m.valueIndex)
    else .ok { options with count := some count })

/-- The digits of a fraction of a second. -/
def digitsSetter : String × Setter :=
  ("digits", choice
    [("1", some 1), ("2", some 2), ("3", some 3), ("4", some 4), ("5", some 5), ("6", some 6),
      ("7", some 7), ("8", some 8), ("9", some 9), ("1+", none)]
    fun o d => { o with digits := d })

/-- A kind of component: its name, its modifiers, one of them that must be there, and what it
makes of the options. -/
structure Family where
  name : String
  setters : List (String × Setter)
  required : Option String := none
  build : Options → Component

/-- All kinds of components. -/
def families : List Family :=
  [ { name := "day", setters := [paddingSetter], build := fun o => .day o.padding },
    { name := "end"
      setters := [("trailing_input", choice [("prohibit", false), ("discard", true)]
        fun o b => { o with discards := b })]
      build := fun o => .ending o.discards },
    { name := "hour"
      setters := [paddingSetter, ("repr", choice [("12", true), ("24", false)]
        fun o b => { o with twelve := b })]
      build := fun o => .hour o.padding o.twelve },
    { name := "ignore", setters := [countSetter], required := some "count"
      build := fun o => .ignore (o.count.getD 0) },
    { name := "minute", setters := [paddingSetter], build := fun o => .minute o.padding },
    { name := "month"
      setters := [paddingSetter,
        ("repr", choice [("numerical", .number), ("long", .long), ("short", .short)]
          fun o f => { o with month := f }), caseSetter]
      build := fun o => .month o.padding o.month o.caseSensitive },
    { name := "offset_hour", setters := [signSetter, paddingSetter]
      build := fun o => .offsetHour o.padding o.signMandatory },
    { name := "offset_minute", setters := [paddingSetter]
      build := fun o => .offsetMinute o.padding },
    { name := "offset_second", setters := [paddingSetter]
      build := fun o => .offsetSecond o.padding },
    { name := "ordinal", setters := [paddingSetter], build := fun o => .ordinal o.padding },
    { name := "period"
      setters := [("case", choice [("lower", false), ("upper", true)]
        fun o b => { o with upper := b }), caseSetter]
      build := fun o => .period o.upper o.caseSensitive },
    { name := "second", setters := [paddingSetter], build := fun o => .second o.padding },
    { name := "subsecond", setters := [digitsSetter], build := fun o => .subsecond o.digits },
    { name := "unix_timestamp"
      setters := [("precision", choice
        [("second", 0), ("millisecond", 3), ("microsecond", 6), ("nanosecond", 9)]
        fun o p => { o with precision := p }), signSetter]
      build := fun o => .unixTimestamp o.precision o.signMandatory },
    { name := "weekday"
      setters := [("repr", choice [("short", .short), ("long", .long), ("sunday", .fromSunday),
          ("monday", .fromMonday)] fun o f => { o with weekday := f }),
        ("one_indexed", choice yesOrNo fun o b => { o with oneIndexed := b }), caseSetter]
      build := fun o => .weekday o.weekday o.oneIndexed o.caseSensitive },
    { name := "week_number"
      setters := [paddingSetter, ("repr", choice [("iso", .iso), ("sunday", .sunday),
        ("monday", .monday)] fun o f => { o with week := f })]
      build := fun o => .weekNumber o.padding o.week },
    { name := "year"
      setters := [paddingSetter,
        ("repr", choice [("full", .full), ("century", .century), ("last_two", .lastTwo)]
          fun o f => { o with year := f }),
        ("range", choice [("standard", ()), ("extended", ())] fun o _ => o),
        ("base", choice [("calendar", false), ("iso_week", true)]
          fun o b => { o with byWeeks := b }), signSetter]
      build := fun o => .year o.padding o.year o.byWeeks o.signMandatory } ]

/-- The options as the modifiers change them, one after the other. -/
def modify (setters : List (String × Setter)) (modifiers : List Modifier) :
    Except Fault Options :=
  modifiers.foldlM (fun options m =>
    match setters.find? fun setter => spells setter.1 m.key with
    | some setter => setter.2 options m
    | none => .error (.badModifier (String.ofList m.key) m.keyIndex)) {}

/-- The component with the name and the modifiers. -/
def Component.ofParts (name : List Char) (index : Nat) (modifiers : List Modifier) :
    Except Fault Component :=
  match families.find? fun family => spells family.name name with
  | none => .error (.unknownComponent (String.ofList name) index)
  | some family => do
    let options ← modify family.setters modifiers
    match family.required with
    | some key =>
      if options.count.isNone then .error (.missingModifier key index)
      else pure (family.build options)
    | none => pure (family.build options)

/-- What is written between the bracket at one byte and the bracket at another that closes it: a
name, modifiers, and descriptions, of which the bytes of their brackets are given. -/
def Item.ofParts (opened : Nat) (name : List Char) (index : Nat) (modifiers : List Modifier)
    (descriptions : List Nat) (closed : Nat) : Except Fault Item :=
  if spells "optional" name then do
    let _ ← modify [("format", choice yesOrNo fun o _ => o)] modifiers
    match descriptions with
    | [] => .error (.missingDescription closed)
    | [_] => .error (.optionalItem opened)
    | first :: _ => .error (.severalDescriptions first)
  else if spells "first" name then do
    let _ ← modify [] modifiers
    .error (.firstItem opened)
  else if descriptions.isEmpty then
    (Component.ofParts name index modifiers).map .component
  else .error (.strayDescription opened)

end ColumnIndex.Pattern
