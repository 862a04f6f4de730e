import ColumnIndex.Toml.Plain
import ColumnIndex.Toml.Token

/-!
# TOML documents

A document is read by a machine, one token at a time. Its frames are the line whose value is being
read, and the arrays and the tables between braces that are open within that value.

## Main definitions

* `Toml.Reading` — a state of the machine.
* `Toml.Reading.step` — what a token does to it.
* `Toml.parse?` — the members of a document.
-/
namespace ColumnIndex.Toml

/-- What a key that is being read is for. -/
inductive KeyUse
  /-- A line of its own. -/
  | line
  /-- One more member of a table between braces. -/
  | member (done : Members)
  /-- The header of a table. -/
  | header
  /-- The header of an entry of an array of tables. -/
  | entry

/-- What a value that is being read belongs to. -/
inductive Frame
  /-- The line with a key. -/
  | line (key : List String)
  /-- An array; the items so far are in reverse. -/
  | item (done : List Toml)
  /-- A table between braces, with its members so far. -/
  | member (done : Members) (key : List String)

/-- What may come next. -/
inductive Place
  | lineStart
  /-- Nothing more on this line. -/
  | afterLine
  | headerStart
  | keyPart (use : KeyUse) (before : List String)
  | afterKeyPart (use : KeyUse) (key : List String)
  /-- The second bracket behind the header of an entry. -/
  | entryEnd (key : List String)
  | value
  /-- More of a value without quotes. -/
  | moreWord (cs : List Char)
  /-- A time of day, or what follows a value that is the date alone. -/
  | timeOfDay (date : List Char)
  | item (done : List Toml)
  | afterItem (done : List Toml)
  | memberStart (done : Members)
  | afterMember (done : Members)

/-- A state of the machine. -/
structure Reading where
  members : Members
  /-- The path of the last header. -/
  header : List String
  /-- What is open, from the inside out. -/
  frames : List Frame
  place : Place

/-- How many arrays and tables between braces may be nested. -/
def maxNesting : Nat := 80

/-- Whether a character may stand in a key without quotes. -/
def isBare (c : Char) : Bool := c.isAlphanum || c = '_' || c = '-'

namespace Reading

/-- The state before the first token. -/
def start : Reading := ⟨[], [], [], .lineStart⟩

/-- The state at another place. -/
def moveTo (r : Reading) (place : Place) : Reading := { r with place := place }

/-- A value is to be read that belongs to the frame. -/
def push (r : Reading) (frame : Frame) : Reading :=
  { r with frames := frame :: r.frames, place := .value }

/-- A value that is complete goes where it belongs. -/
def complete (r : Reading) (value : Toml) : Option Reading :=
  match r.frames with
  | [] => none
  | .line key :: frames =>
    (assign r.header key value r.members).map fun members =>
      { r with members := members, frames := frames, place := .afterLine }
  | .item done :: frames =>
    some { r with frames := frames, place := .afterItem (value :: done) }
  | .member done key :: frames =>
    (assignIn key value .inline done).map fun done =>
      { r with frames := frames, place := .afterMember done }

/-- An array or a table between braces opens, unless too many are open. The frames are those that
are open around it, and the line. -/
def enter (r : Reading) (place : Place) : Option Reading :=
  if r.frames.length ≤ maxNesting then some (r.moveTo place) else none

/-- A token where a value starts. -/
def startValue (r : Reading) : Token → Option Reading
  | .quoted s => r.complete (.text s)
  | .longQuoted s => r.complete (.text s)
  | .word cs => some (r.moveTo (.moreWord cs))
  | .openBracket => r.enter (.item [])
  | .openBrace => r.enter (.memberStart [])
  | _ => none

/-- A token behind a value. Only blanks may follow on a line. Line ends do not matter within an
array or a table between braces. -/
def afterValue (r : Reading) (token : Token) : Option Reading :=
  match r.place, token with
  | _, .blank _ => some r
  | .afterLine, .lineEnd => some (r.moveTo .lineStart)
  | .afterItem _, .lineEnd => some r
  | .afterItem done, .comma => some (r.moveTo (.item done))
  | .afterItem done, .closeBracket => r.complete (.array done.reverse)
  | .afterMember _, .lineEnd => some r
  | .afterMember done, .comma => some (r.moveTo (.memberStart done))
  | .afterMember done, .closeBrace => r.complete (.table .inline done)
  | _, _ => none

/-- The token behind a value without quotes. -/
def finishWord (r : Reading) (cs : List Char) (token : Token) : Option Reading := do
  let value ← ofWord? cs
  let r ← r.complete value
  r.afterValue token

/-- A token where a part of a key is wanted. -/
def keyPart (r : Reading) (use : KeyUse) (before : List String) : Token → Option Reading
  | .blank _ => some (r.moveTo (.keyPart use before))
  | .word cs =>
    if cs.all isBare then some (r.moveTo (.afterKeyPart use (before ++ [String.ofList cs])))
    else none
  | .quoted s => some (r.moveTo (.afterKeyPart use (before ++ [s])))
  | _ => none

/-- A token behind a part of a key. -/
def afterKeyPart (r : Reading) (use : KeyUse) (key : List String) (token : Token) :
    Option Reading :=
  match token, use with
  | .blank _, _ => some r
  | .dot, _ => some (r.moveTo (.keyPart use key))
  | .equals, .line => some (r.push (.line key))
  | .equals, .member done => some (r.push (.member done key))
  | .closeBracket, .header =>
    (openTable key r.members).map fun members =>
      { r with members := members, header := key, place := .afterLine }
  | .closeBracket, .entry => some (r.moveTo (.entryEnd key))
  | _, _ => none

/-- What a token does to the state. -/
def step (r : Reading) (token : Token) : Option Reading :=
  match r.place, token with
  | .lineStart, .blank _ => some r
  | .lineStart, .lineEnd => some r
  | .lineStart, .openBracket => some (r.moveTo .headerStart)
  | .lineStart, _ => r.keyPart .line [] token
  | .headerStart, .openBracket => some (r.moveTo (.keyPart .entry []))
  | .headerStart, _ => r.keyPart .header [] token
  | .keyPart use before, _ => r.keyPart use before token
  | .afterKeyPart use key, _ => r.afterKeyPart use key token
  | .entryEnd key, .closeBracket =>
    (openEntry key r.members).map fun members =>
      { r with members := members, header := key, place := .afterLine }
  | .entryEnd _, _ => none
  | .value, .blank _ => some r
  | .value, _ => r.startValue token
  | .moreWord cs, .word more => some (r.moveTo (.moreWord (cs ++ more)))
  | .moreWord cs, .dot => some (r.moveTo (.moreWord (cs ++ ['.'])))
  | .moreWord cs, .blank true =>
    if afterDate? cs = some [] then some (r.moveTo (.timeOfDay cs)) else r.finishWord cs token
  | .moreWord cs, _ => r.finishWord cs token
  | .timeOfDay date, .word time => some (r.moveTo (.moreWord (date ++ ' ' :: time)))
  | .timeOfDay date, _ => r.finishWord date token
  | .item _, .blank _ => some r
  | .item _, .lineEnd => some r
  | .item done, .closeBracket => r.complete (.array done.reverse)
  | .item done, _ => (r.push (.item done)).startValue token
  | .memberStart _, .blank _ => some r
  | .memberStart _, .lineEnd => some r
  | .memberStart done, .closeBrace => r.complete (.table .inline done)
  | .memberStart done, _ => r.keyPart (.member done) [] token
  | .afterLine, _ => r.afterValue token
  | .afterItem _, _ => r.afterValue token
  | .afterMember _, _ => r.afterValue token

/-- The members of the document, if no line is unfinished. -/
def finish? (r : Reading) : Option Members :=
  match r.place with
  | .lineStart => some r.members
  | _ => none

end Reading

/-- The members of the document that a text spells. The end of the text ends the last line. -/
def parse? (text : String) : Option Members := do
  let tokens ← tokens? text
  let last ← (tokens ++ [Token.lineEnd]).foldlM Reading.step .start
  last.finish?

end ColumnIndex.Toml
