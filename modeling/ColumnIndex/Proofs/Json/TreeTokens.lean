import ColumnIndex.Proofs.Digits
import ColumnIndex.Proofs.Json.Tokens
import Mathlib.Data.List.TakeWhile

/-!
# Tokens of written trees

What is written for a tree falls into the tokens of the tree. Whole numbers of sixty-four bits are
read as they are; of a number that is not whole it is only said that something is read.

## Main definitions

* `Json.Number.reread`, `Json.Number.Legible` — what is read where a number was written.
* `Json.Scannable` — whether the characters of a tree are read at all.
* `Json.Legible` — whether the tree is read from them.
* `Json.firstToken`, `Json.laterTokens` — the tokens of a tree.

Main statement: the characters of a tree have the tokens of the tree.
-/
namespace ColumnIndex.Json

/-! ## Written numbers -/

/-- What is read where the number was written. -/
def Number.reread (n : Number) : Json :=
  match tokens n.chars with
  | [.plain (.ok j)] => j
  | _ => .null

/-- Whether something is read where the number was written. -/
def Number.Legible (n : Number) : Prop := tokens n.chars = [.plain (.ok n.reread)]

theorem Number.reread_of_tokens {n : Number} {j : Json} (h : tokens n.chars = [.plain (.ok j)]) :
    n.reread = j := by
  rw [reread, h]

theorem Number.legible_of_tokens {n : Number} {j : Json}
    (h : tokens n.chars = [.plain (.ok j)]) : n.Legible := by
  rw [Legible, reread_of_tokens h, h]

theorem le_foldl_digits (n : Nat) (cs : List Char) :
    n ≤ cs.foldl (fun n c => 10 * n + Text.digitValue c) n := by
  induction cs generalizing n with
  | nil => exact Nat.le_refl n
  | cons c cs ih =>
    have hstep : n ≤ 10 * n + Text.digitValue c := by omega
    exact Nat.le_trans hstep (ih _)

/-- All digits count as long as their number fits sixty-four bits. -/
theorem leadingDigits_eq {n : Nat} {cs : List Char}
    (h : cs.foldl (fun n c => 10 * n + Text.digitValue c) n < 2 ^ 64) :
    leadingDigits n cs = (cs.foldl (fun n c => 10 * n + Text.digitValue c) n, []) := by
  induction cs generalizing n with
  | nil => rfl
  | cons c cs ih =>
    have hstep := le_foldl_digits (10 * n + Text.digitValue c) cs
    rw [List.foldl_cons] at h
    rw [leadingDigits, if_pos (by omega), List.foldl_cons, ih h]

theorem leadingDigits_digitsOf {n : Nat} (h : n < 2 ^ 64) :
    leadingDigits 0 (Text.digitsOf n) = (n, []) := by
  have hn := Text.numberOf_digitsOf n
  rw [Text.numberOf] at hn
  rw [leadingDigits_eq (by rwa [hn]), hn]

theorem wholePart_digitsOf (n : Nat) :
    wholePart (Text.digitsOf n) = .ok (Text.digitsOf n, []) := by
  rw [wholePart_eq_ok]
  refine ⟨?_, List.drop_length, Text.digitsOf_ne_nil n, ?_⟩
  · exact List.takeWhile_eq_self_iff.2 fun c hc => Text.isDigit_of_mem_digitsOf hc
  · intro c more h
    by_cases hn : n = 0
    · subst hn
      cases h
    · exact Text.head?_digitsOf_ne hn (by rw [h]; rfl)

theorem numberToken_digitsOf (negative : Bool) (n : Nat) :
    numberToken negative (Text.digitsOf n)
      = .ok (.plain (numberValue negative (Text.digitsOf n) none none), []) := by
  rw [numberToken, wholePart_digitsOf]
  rfl

/-- A whole number of sixty-four bits, with or without a sign, is one token. -/
theorem tokens_intChars {i : Int} (hlow : -2 ^ 63 ≤ i) (hhigh : i < 2 ^ 64) :
    tokens (Text.intChars i) = [.plain (.ok (.number (.whole i)))] := by
  have hsize : leadingDigits 0 (Text.digitsOf i.natAbs) = (i.natAbs, []) :=
    leadingDigits_digitsOf (by omega)
  unfold Text.intChars
  split_ifs with hneg
  · have hvalue : numberValue true (Text.digitsOf i.natAbs) none none
        = .ok (.number (.whole i)) := by
      simp only [numberValue, hsize]
      have hrange : ¬(i.natAbs = 0 ∨ 2 ^ 63 < i.natAbs) := by omega
      have hi : -(i.natAbs : Int) = i := by omega
      rw [if_neg hrange, hi]
      rfl
    have hplain : plainToken? '-' (Text.digitsOf i.natAbs)
        = some (numberToken true (Text.digitsOf i.natAbs)) := rfl
    rw [tokens_of_plainToken? hplain, numberToken_digitsOf, hvalue, tokensAfter, tokens]
  · have hvalue : numberValue false (Text.digitsOf i.natAbs) none none
        = .ok (.number (.whole i)) := by
      simp only [numberValue, hsize]
      have hi : (i.natAbs : Int) = i := by omega
      simp [hi]
    obtain ⟨c, cs, hcs⟩ := List.exists_cons_of_ne_nil (Text.digitsOf_ne_nil i.natAbs)
    have hc : Text.isDigit c := by
      refine Text.isDigit_of_mem_digitsOf (n := i.natAbs) ?_
      rw [hcs]
      exact List.mem_cons_self ..
    have hplain : plainToken? c cs = some (numberToken false (Text.digitsOf i.natAbs)) := by
      have hother : ∀ d, Text.isDigit d = false → c ≠ d := by
        rintro d hd rfl
        exact absurd hc (by simp [hd])
      simp [plainToken?, hother 'n' rfl, hother 't' rfl, hother 'f' rfl, hother '-' rfl, hc, hcs]
    rw [hcs, tokens_of_plainToken? hplain, numberToken_digitsOf, hvalue, tokensAfter, tokens]

/-! ## Written trees -/

mutual

/-- Whether all numbers of a tree are read, and no object has a key twice. -/
def Legible : Json → Prop
  | number n => n.Legible
  | list items => ItemsLegible items
  | object members => (Entries.names members).Nodup ∧ MembersLegible members
  | _ => True

/-- Whether all items of a list are legible. -/
def ItemsLegible : List Json → Prop
  | [] => True
  | item :: items => Legible item ∧ ItemsLegible items

/-- Whether all values of members are legible. -/
def MembersLegible : List (String × Json) → Prop
  | [] => True
  | (_, value) :: members => Legible value ∧ MembersLegible members

end

mutual

/-- Whether all numbers of a tree are read. A key may come twice. -/
def Scannable : Json → Prop
  | number n => n.Legible
  | list items => ItemsScannable items
  | object members => MembersScannable members
  | _ => True

/-- Whether all items of a list are scannable. -/
def ItemsScannable : List Json → Prop
  | [] => True
  | item :: items => Scannable item ∧ ItemsScannable items

/-- Whether all values of members are scannable. -/
def MembersScannable : List (String × Json) → Prop
  | [] => True
  | (_, value) :: members => Scannable value ∧ MembersScannable members

end

mutual

theorem Legible.scannable : ∀ {j : Json}, j.Legible → j.Scannable
  | .null, _ | .bool _, _ | .text _, _ => trivial
  | .number _, h => h
  | .list _, h => ItemsLegible.scannable h
  | .object _, h => MembersLegible.scannable h.2

theorem ItemsLegible.scannable : ∀ {items : List Json}, ItemsLegible items → ItemsScannable items
  | [], _ => trivial
  | _ :: _, h => ⟨h.1.scannable, ItemsLegible.scannable h.2⟩

theorem MembersLegible.scannable : ∀ {members : List (String × Json)}, MembersLegible members →
    MembersScannable members
  | [], _ => trivial
  | _ :: _, h => ⟨h.1.scannable, MembersLegible.scannable h.2⟩

end

/-- The token with which a tree starts. -/
def firstToken : Json → Token
  | null => .plain (.ok .null)
  | bool b => .plain (.ok (.bool b))
  | number n => .plain (.ok n.reread)
  | text s => .text (.ok s)
  | list _ => .openList
  | object _ => .openObject

mutual

/-- The tokens of a tree after the first one. -/
def laterTokens : Json → List Token
  | list items => itemTokens items
  | object members => memberTokens members
  | _ => []

/-- The tokens of the items of a list, up to the bracket that closes it. -/
def itemTokens : List Json → List Token
  | [] => [.closeList]
  | [item] => item.firstToken :: item.laterTokens ++ [.closeList]
  | item :: other :: others =>
    item.firstToken :: item.laterTokens ++ .comma :: itemTokens (other :: others)

/-- The tokens of the members of an object, up to the brace that closes it. -/
def memberTokens : List (String × Json) → List Token
  | [] => [.closeObject]
  | [(key, value)] =>
    .text (.ok key) :: .colon :: value.firstToken :: value.laterTokens ++ [.closeObject]
  | (key, value) :: other :: others =>
    .text (.ok key) :: .colon :: value.firstToken :: value.laterTokens
      ++ .comma :: memberTokens (other :: others)

end

theorem tokens_nil : tokens [] = [] := by
  rw [tokens]

mutual

/-- The characters of a tree have the tokens of the tree, whatever follows it. -/
theorem tokens_chars : ∀ {j : Json}, j.Scannable → ∀ {rest : List Char}, Delimited rest →
    tokens (j.chars ++ rest) = j.firstToken :: j.laterTokens ++ tokens rest
  | .null, _, rest, hrest => by
    have h : tokens ['n', 'u', 'l', 'l'] = [.plain (.ok .null)] := by
      rw [tokens_of_plainToken? (c := 'n') rfl]
      simp [wordToken, afterWord, tokensAfter, tokens_nil]
    exact tokens_append_of_plain h hrest
  | .bool true, _, rest, hrest => by
    have h : tokens ['t', 'r', 'u', 'e'] = [.plain (.ok (.bool true))] := by
      rw [tokens_of_plainToken? (c := 't') rfl]
      simp [wordToken, afterWord, tokensAfter, tokens_nil]
    exact tokens_append_of_plain h hrest
  | .bool false, _, rest, hrest => by
    have h : tokens ['f', 'a', 'l', 's', 'e'] = [.plain (.ok (.bool false))] := by
      rw [tokens_of_plainToken? (c := 'f') rfl]
      simp [wordToken, afterWord, tokensAfter, tokens_nil]
    exact tokens_append_of_plain h hrest
  | .number n, h, rest, hrest => tokens_append_of_plain h hrest
  | .text s, _, rest, _ => tokens_textChars s rest
  | .list items, h, rest, _ => by
    rw [chars, List.cons_append, tokens_openList, tokens_itemChars h]
    rfl
  | .object members, h, rest, _ => by
    rw [chars, List.cons_append, tokens_openObject, tokens_memberChars h]
    rfl

theorem tokens_itemChars : ∀ {items : List Json}, ItemsScannable items → ∀ {rest : List Char},
    tokens (itemChars items ++ rest) = itemTokens items ++ tokens rest
  | [], _, rest => tokens_closeList rest
  | [item], h, rest => by
    rw [itemChars, List.append_assoc, List.cons_append, List.nil_append,
      tokens_chars h.1 (delimited_cons (by decide) _), tokens_closeList]
    simp [itemTokens]
  | item :: other :: others, h, rest => by
    rw [itemChars, List.append_assoc, List.cons_append,
      tokens_chars h.1 (delimited_cons (by decide) _), tokens_comma, tokens_itemChars h.2]
    simp [itemTokens]

theorem tokens_memberChars : ∀ {members : List (String × Json)}, MembersScannable members →
    ∀ {rest : List Char},
    tokens (memberChars members ++ rest) = memberTokens members ++ tokens rest
  | [], _, rest => tokens_closeObject rest
  | [(key, value)], h, rest => by
    simp only [memberChars, List.append_assoc, List.cons_append, List.nil_append]
    rw [tokens_textChars, tokens_colon, tokens_chars h.1 (delimited_cons (by decide) _)]
    simp [memberTokens, tokens_closeObject]
  | (key, value) :: other :: others, h, rest => by
    simp only [memberChars, List.append_assoc, List.cons_append]
    rw [tokens_textChars, tokens_colon, tokens_chars h.1 (delimited_cons (by decide) _),
      tokens_comma, tokens_memberChars h.2]
    simp [memberTokens]

end

end ColumnIndex.Json
