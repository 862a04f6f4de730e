import ColumnIndex.Json.Token

/-!
# Scans of JSON texts

A scan is the tree of a JSON text as far as the text can be read, with the faults left in the
places where they were met. Whoever reads on from a scan meets values and faults in the order of
the text: a value that must not stand where it stands is found before a fault behind it.

The scan is built by a machine that reads one token at a time. Its frames are the lists and
objects that are open around the place where it reads.

## Main definitions

* `Json.Scan` — the trees.
* `Json.scan` — the scan of a text, and whether the text goes on behind it.
* `Json.Scan.toJson` — the whole tree, or the first fault.
* `Json.Scan.skip` — the first fault that hinders passing over.
* `Json.parse` — a text as a tree.
-/
namespace ColumnIndex.Json

/-- A JSON text as far as it can be read. -/
inductive Scan
  /-- A word, a number or a text, or a fault that does not hinder passing over. -/
  | scalar (v : Except SyntaxFault Json)
  /-- The items before the bracket that closes the list, or before a stop. -/
  | list (items : List Scan) (stop : Option Stop)
  /-- The members before the brace that closes the object, or before a stop. -/
  | object (members : List (Except SyntaxFault String × Scan)) (stop : Option Stop)
  /-- Nothing can be read here. -/
  | broken (stop : Stop)

/-- The members of an object with their values. -/
abbrev Scan.Members := List (Except SyntaxFault String × Scan)

/-! ## The machine -/

/-- A list or an object that is open around a value; what it holds so far is in reverse. -/
inductive Frame
  | list (done : List Scan)
  | object (done : Scan.Members) (key : Except SyntaxFault String)

/-- What may come next, and what the innermost list or object holds so far, in reverse. -/
inductive Place
  | value
  | firstItem
  | nextItem (done : List Scan)
  | afterItem (done : List Scan)
  | firstKey
  | nextKey (done : Scan.Members)
  | afterKey (done : Scan.Members) (key : Except SyntaxFault String)
  | afterMember (done : Scan.Members)

/-- What comes of reading a token. -/
inductive Step
  | next (frames : List Frame) (place : Place)
  | complete (root : Scan)
  | broken (root : Scan)

/-- The whole tree around a scan that ends with a stop. -/
def enclose (stop : Stop) (inner : Scan) : List Frame → Scan
  | [] => inner
  | .list done :: frames => enclose stop (.list (done.reverse ++ [inner]) (some stop)) frames
  | .object done key :: frames =>
    enclose stop (.object (done.reverse ++ [(key, inner)]) (some stop)) frames

/-- A value that is complete goes into the innermost frame. -/
def Step.ofValue (frames : List Frame) (value : Scan) : Step :=
  match frames with
  | [] => .complete value
  | .list done :: frames => .next frames (.afterItem (value :: done))
  | .object done key :: frames => .next frames (.afterMember ((key, value) :: done))

/-- Nothing can be read where a value is wanted. -/
def noScan (frames : List Frame) (stop : Stop) : Scan := enclose stop (.broken stop) frames

/-- A list that ends with a stop. -/
def stoppedList (frames : List Frame) (done : List Scan) (stop : Stop) : Scan :=
  enclose stop (.list done.reverse (some stop)) frames

/-- An object that ends with a stop. -/
def stoppedObject (frames : List Frame) (done : Scan.Members) (stop : Stop) : Scan :=
  enclose stop (.object done.reverse (some stop)) frames

/-- A token where a value is wanted. -/
def valueStep (frames : List Frame) : Token → Step
  | .openList => .next frames .firstItem
  | .openObject => .next frames .firstKey
  | .plain v => .ofValue frames (.scalar v)
  | .text v => .ofValue frames (.scalar (v.map .text))
  | .stop _ stop => .broken (noScan frames stop)
  | _ => .broken (noScan frames (.both .noValue))

/-- A token where a key is wanted. -/
def keyStep (frames : List Frame) (done : Scan.Members) : Token → Step
  | .text key => .next frames (.afterKey done key)
  | .stop true stop => .broken (stoppedObject frames done stop)
  | _ => .broken (stoppedObject frames done (.both .keyNotText))

/-- What comes of a token at a place. -/
def step (frames : List Frame) (place : Place) (token : Token) : Step :=
  match place, token with
  | .value, _ => valueStep frames token
  | .firstItem, .closeList => .ofValue frames (.list [] none)
  | .firstItem, _ => valueStep (.list [] :: frames) token
  | .nextItem done, .closeList =>
    .broken (stoppedList frames done ⟨.trailingComma, .noValue⟩)
  | .nextItem done, _ => valueStep (.list done :: frames) token
  | .afterItem done, .comma => .next frames (.nextItem done)
  | .afterItem done, .closeList => .ofValue frames (.list done.reverse none)
  | .afterItem done, _ => .broken (stoppedList frames done (.both .noCommaInList))
  | .firstKey, .closeObject => .ofValue frames (.object [] none)
  | .firstKey, _ => keyStep frames [] token
  | .nextKey done, .closeObject =>
    .broken (stoppedObject frames done ⟨.trailingComma, .keyNotText⟩)
  | .nextKey done, _ => keyStep frames done token
  | .afterKey done key, .colon => .next (.object done key :: frames) .value
  | .afterKey done key, _ => .broken (noScan (.object done key :: frames) (.both .noColon))
  | .afterMember done, .comma => .next frames (.nextKey done)
  | .afterMember done, .closeObject => .ofValue frames (.object done.reverse none)
  | .afterMember done, _ => .broken (stoppedObject frames done (.both .noCommaInObject))

/-- What comes of the end of the text at a place. -/
def atEnd (frames : List Frame) : Place → Scan
  | .value => noScan frames (.both .endOfValue)
  | .firstItem => stoppedList frames [] (.both .endOfList)
  | .nextItem done => stoppedList frames done (.both .endOfValue)
  | .afterItem done => stoppedList frames done (.both .endOfList)
  | .firstKey => stoppedObject frames [] (.both .endOfObject)
  | .nextKey done => stoppedObject frames done ⟨.endOfValue, .endOfObject⟩
  | .afterKey done key => noScan (.object done key :: frames) (.both .endOfObject)
  | .afterMember done => stoppedObject frames done (.both .endOfObject)

/-- A scan, and whether the text goes on behind it. -/
structure Scanned where
  root : Scan
  trailing : Bool

/-- The scan of the tokens, read from a place on. -/
def scanFrom (frames : List Frame) (place : Place) : List Token → Scanned
  | [] => ⟨atEnd frames place, false⟩
  | token :: tokens =>
    match step frames place token with
    | .next frames place => scanFrom frames place tokens
    | .complete root => ⟨root, !tokens.isEmpty⟩
    | .broken root => ⟨root, false⟩

/-- The scan of a text. -/
def scan (text : String) : Scanned := scanFrom [] .value (tokens text.toList)

/-! ## Reading a scan -/

/-- How deep lists and objects may be nested. -/
def maxDepth : Nat := 127

/-- A list or an object that was closed, or the fault where it was not. -/
def Scan.closed (stop : Option Stop) : Except SyntaxFault Unit :=
  match stop with
  | none => .ok ()
  | some stop => .error stop.wanted

mutual

/-- The tree, or the first fault in the order of the text. `room` is how deep lists and objects
may still be nested. -/
def Scan.toJson (room : Nat) : Scan → Except SyntaxFault Json
  | .scalar v => v
  | .broken stop => .error stop.wanted
  | .list items stop =>
    match room with
    | 0 => .error .tooDeep
    | room + 1 => do
      let items ← Scan.listToJson room items
      Scan.closed stop
      pure (.list items)
  | .object members stop =>
    match room with
    | 0 => .error .tooDeep
    | room + 1 => do
      let members ← Scan.membersToJson room [] members
      Scan.closed stop
      pure (.object members)

/-- The trees of the items of a list. -/
def Scan.listToJson (room : Nat) : List Scan → Except SyntaxFault (List Json)
  | [] => .ok []
  | item :: items => do
    let value ← Scan.toJson room item
    let values ← Scan.listToJson room items
    pure (value :: values)

/-- The members of an object after the given ones: a key that is there already keeps its place
and takes the new value. -/
def Scan.membersToJson (room : Nat) (done : List (String × Json)) :
    Scan.Members → Except SyntaxFault (List (String × Json))
  | [] => .ok done
  | (key, value) :: members => do
    let key ← key
    let value ← Scan.toJson room value
    Scan.membersToJson room (Entries.put key value done) members

end

mutual

/-- Passes over a scan, or finds the first fault that hinders it. There is no limit on depth. -/
def Scan.skip : Scan → Except SyntaxFault Unit
  | .scalar _ => .ok ()
  | .broken stop => .error stop.skipped
  | .list items stop => do
    Scan.skipList items
    match stop with
    | none => .ok ()
    | some stop => .error stop.skipped
  | .object members stop => do
    Scan.skipMembers members
    match stop with
    | none => .ok ()
    | some stop => .error stop.skipped

/-- Passes over the items of a list. -/
def Scan.skipList : List Scan → Except SyntaxFault Unit
  | [] => .ok ()
  | item :: items => do
    Scan.skip item
    Scan.skipList items

/-- Passes over the members of an object. -/
def Scan.skipMembers : Scan.Members → Except SyntaxFault Unit
  | [] => .ok ()
  | (_, value) :: members => do
    Scan.skip value
    Scan.skipMembers members

end

/-- The end of a text: nothing but blanks may follow the scan. -/
def Scanned.ended (s : Scanned) : Except SyntaxFault Unit :=
  if s.trailing then .error .trailingCharacters else .ok ()

/-- A text as a tree. -/
def parse (text : String) : Except SyntaxFault Json := do
  let scanned := scan text
  let tree ← scanned.root.toJson maxDepth
  scanned.ended
  pure tree

end ColumnIndex.Json
