import ColumnIndex.Calendar.Pattern.Modifier
import ColumnIndex.Calendar.Pattern.Token

/-!
# Reading date patterns

A reader takes tokens off the front of a list. A fault does not give them back: a description
that cannot be read ends the descriptions of its component, and what is left of it is read as the
end of that component.

## Main definitions

* `Pattern.Reader` — reading from tokens.
* `Pattern.bracketed`, `description`, `descriptions`, `contents` — the grammar inside brackets.
* `Pattern.parse` — a pattern text as items, or the first fault.
-/
namespace ColumnIndex.Pattern

/-- Reading from the front of the tokens. A fault keeps what was taken off before it. -/
abbrev Reader := ExceptT Fault (StateM (List Token))

/-- The part at the front with its byte, if there is one of blanks or of others, as is asked. -/
def part? (blank : Bool) : Reader (Option (List Char × Nat)) := do
  match ← get with
  | .part found text index :: rest =>
    if found = blank then
      set rest
      pure (some (text, index))
    else pure none
  | _ => pure none

/-- The byte of the opening bracket at the front, if there is one. -/
def opening? : Reader (Option Nat) := do
  match ← get with
  | .opening index :: rest =>
    set rest
    pure (some index)
  | _ => pure none

/-- The byte of the bracket at the front that closes the one at the given byte. -/
def closing (opened : Nat) : Reader Nat := do
  match ← get with
  | .closing index :: rest =>
    set rest
    pure index
  | _ => throw (.unclosedBracket opened)

/-- The name after the bracket at the given byte, and after a blank. -/
def name (opened : Nat) : Reader (List Char × Nat) := do
  let blank ← part? true
  match ← part? false with
  | some name => pure name
  | none => throw (.missingName ((blank.map Prod.snd).getD opened))

/-- The modifiers at the start of the tokens, each after a blank, and what follows them. -/
def modifiersFrom : List Token → Except Fault (List Modifier) × List Token
  | .part true _ _ :: .part false text index :: tokens =>
    match Modifier.parse text index with
    | .error fault => (.error fault, tokens)
    | .ok first =>
      let (others, rest) := modifiersFrom tokens
      (others.map (first :: ·), rest)
  | tokens => (.ok [], tokens)

/-- The modifiers at the front. -/
def modifiers : Reader (List Modifier) := modifiersFrom

mutual

/-- What follows the bracket at the given byte, up to the one that closes it. The first argument
bounds the steps, here and below. -/
def bracketed (steps opened : Nat) : Reader Item :=
  match steps with
  | 0 => throw (.unclosedBracket opened)
  | steps + 1 => do
    let (name, index) ← name opened
    let modifiers ← modifiers
    let blank ← part? true
    let nested ←
      if blank.isSome then descriptions steps
      else
        match ← opening? with
        | some bracket => throw (.missingBlank bracket)
        | none => pure []
    let closed ← closing opened
    Item.ofParts opened name index modifiers nested closed

/-- The bytes of the brackets of the descriptions at the front, up to one that cannot be read. -/
def descriptions (steps : Nat) : Reader (List Nat) :=
  match steps with
  | 0 => pure []
  | steps + 1 => do
    match ← opening? with
    | none => pure []
    | some opened =>
      try
        description steps opened
      catch _ => return []
      let others ← descriptions steps
      pure (opened :: others)

/-- What follows the bracket at the given byte, when this is the bracket of a description, up to
the one that closes it and a blank. -/
def description (steps opened : Nat) : Reader Unit :=
  match steps with
  | 0 => throw (.unclosedBracket opened)
  | steps + 1 => do
    contents steps
    discard (closing opened)
    discard (part? true)

/-- The items of a description: plain text in any number of parts, and what stands in brackets. -/
def contents (steps : Nat) : Reader Unit :=
  match steps with
  | 0 => pure ()
  | steps + 1 => do
    match ← get with
    | .opening index :: rest =>
      set rest
      discard (bracketed steps index)
      contents steps
    | .literal _ :: rest | .part _ _ _ :: rest =>
      set rest
      contents steps
    | .closing _ :: _ | [] => pure ()

end

/-- The items of a pattern, up to the end or to a bracket that closes none. -/
def items (steps : Nat) : Reader (List Item) :=
  match steps with
  | 0 => pure []
  | steps + 1 => do
    match ← get with
    | .opening index :: rest =>
      set rest
      let first ← bracketed steps index
      let others ← items steps
      pure (first :: others)
    | .literal text :: rest | .part _ text _ :: rest =>
      set rest
      let others ← items steps
      pure (.literal text :: others)
    | .closing _ :: _ | [] => pure []

/-- The items of a pattern text, or its first fault. From one token to the next there are at most
four steps. -/
def parse (text : String) : Except Fault (List Item) :=
  let tokens := tokens text
  ((items (4 * tokens.length + 4)).run tokens).1

end ColumnIndex.Pattern
