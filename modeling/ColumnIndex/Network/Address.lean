import ColumnIndex.Text.Digits
import ColumnIndex.Text.Hex

/-!
# Internet addresses

Addresses of both versions of the internet protocol, with their canonical texts. The long kind is
written in groups of lower-case digits; its longest run of two or more zero groups, of two equal
runs the first, is written as a double colon, and an address that embeds a short one shows it.
-/
namespace ColumnIndex

/-- An internet address. -/
inductive Address
  /-- Four bytes. -/
  | short (a b c d : UInt8)
  /-- Eight groups of sixteen bits. -/
  | long (groups : List UInt16) (length_eq : groups.length = 8)
  deriving DecidableEq

namespace Address

/-- The bytes of a short address, with points between them. -/
def shortChars (a b c d : UInt8) : List Char :=
  Text.digitsOf a.toNat ++ '.' :: Text.digitsOf b.toNat ++ '.' :: Text.digitsOf c.toNat
    ++ '.' :: Text.digitsOf d.toNat

/-- Groups with colons between them. -/
def groupChars (groups : List UInt16) : List Char :=
  [':'].intercalate (groups.map fun g => Text.hexOfNat g.toNat)

/-- A run of zero groups: where it starts and how long it is. -/
structure ZeroRun where
  start : Nat
  length : Nat

/-- The first of the longest runs of zeros, when `current` is the run that ends before the given
groups, which start at `index`, and `best` the best one so far. -/
def longestFrom (index : Nat) (current best : ZeroRun) : List UInt16 → ZeroRun
  | [] => best
  | g :: gs =>
    if g = 0 then
      let current : ZeroRun :=
        if current.length = 0 then ⟨index, 1⟩ else ⟨current.start, current.length + 1⟩
      longestFrom (index + 1) current (if best.length < current.length then current else best) gs
    else longestFrom (index + 1) ⟨0, 0⟩ best gs

/-- The first of the longest runs of zero groups. -/
def longestZeroRun (groups : List UInt16) : ZeroRun := longestFrom 0 ⟨0, 0⟩ ⟨0, 0⟩ groups

/-- The two bytes of a group. -/
def groupBytes (g : UInt16) : UInt8 × UInt8 := (UInt8.ofNat (g.toNat / 256), UInt8.ofNat g.toNat)

/-- The characters of a long address. -/
def longChars (groups : List UInt16) : List Char :=
  match groups with
  | [0, 0, 0, 0, 0, 0xffff, high, low] =>
    let (a, b) := groupBytes high
    let (c, d) := groupBytes low
    "::ffff:".toList ++ shortChars a b c d
  | _ =>
    let run := longestZeroRun groups
    if 1 < run.length then
      groupChars (groups.take run.start) ++ ':' :: ':' ::
        groupChars (groups.drop (run.start + run.length))
    else groupChars groups

/-- The characters of an address. -/
def chars : Address → List Char
  | short a b c d => shortChars a b c d
  | long groups _ => longChars groups

/-- The canonical text of an address. -/
def text (a : Address) : String := String.ofList a.chars

/-! ## Reading -/

/-- A number at the start, of at least one and at most so many digits, below the limit; zero
aside, it may start with a zero only if that is allowed. -/
def number? (value? : Char → Option Nat) (radix most limit : Nat) (leadingZeros : Bool)
    (cs : List Char) : Option (Nat × List Char) :=
  let digits := cs.takeWhile fun c => (value? c).isSome
  let n := digits.foldl (fun n c => radix * n + (value? c).getD 0) 0
  if digits.isEmpty || most < digits.length || limit ≤ n then none
  else if !leadingZeros && digits.head? == some '0' && 1 < digits.length then none
  else some (n, cs.drop digits.length)

/-- A byte at the start, in decimal digits without leading zeros. -/
def byte? (cs : List Char) : Option (Nat × List Char) :=
  number? (fun c => if Text.isDigit c then some (Text.digitValue c) else none) 10 3 256 false cs

/-- A group at the start, of at most four digits. -/
def group? (cs : List Char) : Option (Nat × List Char) :=
  number? Text.hexValue? 16 4 65536 true cs

/-- The rest after the character, if that is what comes first. -/
def after? (c : Char) : List Char → Option (List Char)
  | [] => none
  | d :: cs => if d = c then some cs else none

/-- Four bytes with points between them at the start. -/
def bytes? (cs : List Char) : Option ((Nat × Nat × Nat × Nat) × List Char) := do
  let (a, cs) ← byte? cs
  let (b, cs) ← byte? (← after? '.' cs)
  let (c, cs) ← byte? (← after? '.' cs)
  let (d, cs) ← byte? (← after? '.' cs)
  pure ((a, b, c, d), cs)

/-- A series of groups at the start, at most as many as there is room for, with colons between
them, and whether it ends in a short address, which takes the room of two. -/
def groups (first : Bool) : Nat → List Char → List Nat × Bool × List Char
  | 0, cs => ([], false, cs)
  | room + 1, cs =>
    let start := if first then some cs else after? ':' cs
    match if room = 0 then none else start.bind bytes? with
    | some ((a, b, c, d), rest) => ([256 * a + b, 256 * c + d], true, rest)
    | none =>
      match start.bind group? with
      | some (g, rest) =>
        let (others, embedded, rest) := groups false room rest
        (g :: others, embedded, rest)
      | none => ([], false, cs)

/-- The long address with the groups. -/
def ofGroups? (gs : List Nat) : Option Address :=
  if h : (gs.map UInt16.ofNat).length = 8 then some (long (gs.map UInt16.ofNat) h) else none

/-- A long address: eight groups, or fewer with a double colon for the zeros between them. -/
def parseLong? (cs : List Char) : Option Address :=
  let (head, embedded, rest) := groups true 8 cs
  if head.length = 8 then (if rest.isEmpty then ofGroups? head else none)
  else if embedded then none
  else do
    let rest ← after? ':' rest
    let rest ← after? ':' rest
    let (tail, _, rest) := groups true (7 - head.length) rest
    if rest.isEmpty then
      ofGroups? (head ++ List.replicate (8 - head.length - tail.length) 0 ++ tail)
    else none

/-- A short address. -/
def parseShort? (cs : List Char) : Option Address :=
  match bytes? cs with
  | some ((a, b, c, d), []) =>
    some (short (UInt8.ofNat a) (UInt8.ofNat b) (UInt8.ofNat c) (UInt8.ofNat d))
  | _ => none

/-- An address of either kind. -/
def parse? (cs : List Char) : Option Address := parseShort? cs <|> parseLong? cs

end Address

end ColumnIndex
