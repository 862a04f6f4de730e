import ColumnIndex.Json.Token
import ColumnIndex.Proofs.Outcome
import Mathlib.Tactic.SplitIfs

/-!
# Tokens of JSON texts

A written text ends with its quote. A number or a word ends where something follows it that is no
part of a number, so its token is found on the number alone.

## Main definitions

* `Json.Delimited` — what may follow a value in a tree.
* `Json.plainToken?` — the token of a word or a number, and what follows it.

Main statement: what is read as one plain token is read so wherever a value may stand.
-/
namespace ColumnIndex.Json

open Outcome

/-! ## Texts -/

theorem hex4?_control {n : Nat} (h : n < 32) :
    hex4? '0' '0' (Text.hexDigit (n / 16)) (Text.hexDigit (n % 16)) = some n := by
  have every : ∀ i : Fin 32,
      hex4? '0' '0' (Text.hexDigit (i / 16)) (Text.hexDigit (i % 16)) = some i.val := by decide
  exact every ⟨n, h⟩

/-- A character that needs no escape stands for itself. -/
theorem textFrom_plain {flaw : Option SyntaxFault} {read cs : List Char} {c : Char}
    (hquote : c ≠ '"') (hslash : c ≠ '\\') (hc : 32 ≤ c.toNat) :
    textFrom flaw read (c :: cs) = textFrom flaw (c :: read) cs := by
  rw [textFrom, if_neg (Nat.not_lt.2 hc)]
  · exact hquote
  · exact fun _ _ _ _ _ h => absurd h hslash
  · exact fun _ h => absurd h hslash
  · exact fun _ _ h => absurd h hslash
  · exact fun h => absurd h hslash

/-- A character is read back from its escape. -/
theorem textFrom_escapedChar (flaw : Option SyntaxFault) (read cs : List Char) (c : Char) :
    textFrom flaw read (escapedChar c ++ cs) = textFrom flaw (c :: read) cs := by
  unfold escapedChar
  split_ifs with hquote hslash hn hr ht hb hf hcontrol
  · subst hquote
    rfl
  · subst hslash
    rfl
  · subst hn
    rfl
  · subst hr
    rfl
  · subst ht
    rfl
  · subst hb
    rfl
  · subst hf
    rfl
  · simp only [List.cons_append, List.nil_append]
    rw [textFrom, hex4?_control hcontrol]
    simp only
    rw [if_pos (Or.inl (by omega)), Char.ofNat_toNat]
  · exact textFrom_plain hquote hslash (by omega)

/-- A text is read back up to its quote. -/
theorem textFrom_flatMap (flaw : Option SyntaxFault) (read cs rest : List Char) :
    textFrom flaw read (cs.flatMap escapedChar ++ '"' :: rest)
      = textFrom flaw (cs.reverse ++ read) ('"' :: rest) := by
  induction cs generalizing read with
  | nil => rfl
  | cons c cs ih =>
    rw [List.flatMap_cons, List.append_assoc, textFrom_escapedChar, ih, List.reverse_cons,
      List.append_assoc]
    rfl

/-- A written text is one token. -/
theorem tokens_textChars (s : String) (rest : List Char) :
    tokens (textChars s ++ rest) = .text (.ok s) :: tokens rest := by
  have h : textFrom none [] (s.toList.flatMap escapedChar ++ '"' :: rest)
      = .closed (.ok s) rest := by
    rw [textFrom_flatMap]
    simp [textFrom]
  simp only [textChars, List.cons_append, List.append_assoc, List.nil_append]
  rw [tokens]
  simp only [isJsonBlank, Char.reduceEq, decide_false, Bool.or_self, Bool.false_eq_true, if_false,
    if_true]
  split
  · rename_i value rest' h'
    rw [h] at h'
    cases h'
    rfl
  · rename_i stop h'
    rw [h] at h'
    cases h'

/-! ## Marks -/

theorem tokens_openList (cs : List Char) : tokens ('[' :: cs) = .openList :: tokens cs := by
  rw [tokens]
  rfl

theorem tokens_closeList (cs : List Char) : tokens (']' :: cs) = .closeList :: tokens cs := by
  rw [tokens]
  rfl

theorem tokens_openObject (cs : List Char) :
    tokens ('\x7b' :: cs) = .openObject :: tokens cs := by
  rw [tokens]
  rfl

theorem tokens_closeObject (cs : List Char) :
    tokens ('\x7d' :: cs) = .closeObject :: tokens cs := by
  rw [tokens]
  rfl

theorem tokens_comma (cs : List Char) : tokens (',' :: cs) = .comma :: tokens cs := by
  rw [tokens]
  rfl

theorem tokens_colon (cs : List Char) : tokens (':' :: cs) = .colon :: tokens cs := by
  rw [tokens]
  rfl

/-! ## Numbers and words -/

/-- What may follow a value in a tree. -/
def Delimited (rest : List Char) : Prop := ∀ c ∈ rest.head?, c ∈ [',', ']', '\x7d']

theorem delimited_nil : Delimited [] := by
  intro c hc
  cases hc

theorem delimited_cons {c : Char} (h : c ∈ [',', ']', '\x7d']) (cs : List Char) :
    Delimited (c :: cs) := by
  intro c' hc'
  cases hc'
  exact h

section Append

variable {cs rest : List Char}

theorem takeWhile_isDigit_append (h : Delimited rest) :
    (cs ++ rest).takeWhile Text.isDigit = cs.takeWhile Text.isDigit := by
  induction cs with
  | nil =>
    cases rest with
    | nil => rfl
    | cons c rest =>
      have hc : ¬Text.isDigit c := by
        have every : [',', ']', '\x7d'].all (!Text.isDigit ·) := by decide
        have hc := List.all_eq_true.1 every c (h c rfl)
        rwa [Bool.not_eq_true', ← Bool.not_eq_true] at hc
      simp [hc]
  | cons c cs ih =>
    rw [List.cons_append, List.takeWhile_cons, List.takeWhile_cons, ih]

theorem drop_takeWhile_append (p : Char → Bool) :
    (cs ++ rest).drop (cs.takeWhile p).length = cs.drop (cs.takeWhile p).length ++ rest :=
  List.drop_append_of_le_length (List.takeWhile_sublist p).length_le

/-- The digits before the point: there is at least one, and a zero stands alone. -/
theorem wholePart_eq_ok {whole after : List Char} :
    wholePart cs = .ok (whole, after) ↔
      cs.takeWhile Text.isDigit = whole ∧ cs.drop whole.length = after ∧ whole ≠ [] ∧
        ∀ c more, whole ≠ '0' :: c :: more := by
  unfold wholePart
  simp only
  split
  · rename_i hnil
    constructor
    · intro h
      cases h
    · rintro ⟨rfl, -, hne, -⟩
      exact absurd hnil hne
  · rename_i c more hzero
    constructor
    · intro h
      cases h
    · rintro ⟨rfl, -, -, hne⟩
      exact absurd hzero (hne c more)
  · rename_i hnil hzero
    simp only [Except.ok.injEq, Prod.mk.injEq]
    constructor
    · rintro ⟨rfl, rfl⟩
      exact ⟨rfl, rfl, hnil, hzero⟩
    · rintro ⟨rfl, rfl, -, -⟩
      exact ⟨rfl, rfl⟩

theorem wholePart_append (h : Delimited rest) {whole after : List Char}
    (hcs : wholePart cs = .ok (whole, after)) :
    wholePart (cs ++ rest) = .ok (whole, after ++ rest) := by
  rw [wholePart_eq_ok] at hcs ⊢
  obtain ⟨rfl, rfl, hnil, hzero⟩ := hcs
  exact ⟨takeWhile_isDigit_append h, drop_takeWhile_append _, hnil, hzero⟩

/-- What may follow a value is no point. -/
theorem fractionPart_of_delimited (h : Delimited rest) :
    fractionPart rest = .ok (none, rest) := by
  cases rest with
  | nil => rfl
  | cons c rest =>
    have hc := h c rfl
    simp only [List.mem_cons, List.not_mem_nil, or_false] at hc
    rcases hc with rfl | rfl | rfl <;> rfl

/-- What may follow a value is no mark of an exponent. -/
theorem exponentPart_of_delimited (h : Delimited rest) :
    exponentPart rest = .ok (none, rest) := by
  cases rest with
  | nil => rfl
  | cons c rest =>
    have hc := h c rfl
    simp only [List.mem_cons, List.not_mem_nil, or_false] at hc
    rcases hc with rfl | rfl | rfl <;> rfl

theorem fractionPart_append (h : Delimited rest) {fraction : Option (List Char)}
    {after : List Char} (hcs : fractionPart cs = .ok (fraction, after)) :
    fractionPart (cs ++ rest) = .ok (fraction, after ++ rest) := by
  unfold fractionPart at hcs
  split at hcs
  · rename_i cs
    simp only [List.cons_append, fractionPart, takeWhile_isDigit_append h, drop_takeWhile_append]
    simp only at hcs
    split_ifs at hcs ⊢ with hdigits
    simp_all
  · rename_i hpoint
    cases hcs
    cases cs with
    | nil => exact fractionPart_of_delimited h
    | cons c cs =>
      unfold fractionPart
      split
      · rename_i heq
        cases heq
        exact absurd rfl (hpoint cs)
      · rfl

/-- Whether an exponent is negative, and what follows its sign. -/
def exponentSign : List Char → Bool × List Char
  | '+' :: cs => (false, cs)
  | '-' :: cs => (true, cs)
  | cs => (false, cs)

theorem exponentSign_append (hcs : cs ≠ []) :
    exponentSign (cs ++ rest) = ((exponentSign cs).1, (exponentSign cs).2 ++ rest) := by
  obtain ⟨c, cs, rfl⟩ := List.exists_cons_of_ne_nil hcs
  by_cases hplus : c = '+'
  · subst hplus
    rfl
  · by_cases hminus : c = '-'
    · subst hminus
      rfl
    · simp [exponentSign, hplus, hminus]

theorem exponentPart_cons (c : Char) (cs : List Char) :
    exponentPart (c :: cs) =
      if c = 'e' ∨ c = 'E' then
        let digits := (exponentSign cs).2.takeWhile Text.isDigit
        if digits.isEmpty then .error (missingDigits (exponentSign cs).2)
        else .ok (some ((exponentSign cs).1, digits), (exponentSign cs).2.drop digits.length)
      else .ok (none, c :: cs) := rfl

theorem exponentPart_append (h : Delimited rest) {exponent : Option (Bool × List Char)}
    {after : List Char} (hcs : exponentPart cs = .ok (exponent, after)) :
    exponentPart (cs ++ rest) = .ok (exponent, after ++ rest) := by
  cases cs with
  | nil =>
    cases hcs
    exact exponentPart_of_delimited h
  | cons c cs =>
    rw [exponentPart_cons] at hcs
    rw [List.cons_append, exponentPart_cons]
    by_cases hmark : c = 'e' ∨ c = 'E'
    · rw [if_pos hmark] at hcs ⊢
      have hne : cs ≠ [] := by
        rintro rfl
        cases hcs
      rw [exponentSign_append hne]
      simp only [takeWhile_isDigit_append h, drop_takeWhile_append] at hcs ⊢
      split_ifs at hcs ⊢ with hdigits
      simp_all
    · rw [if_neg hmark] at hcs ⊢
      cases hcs
      rfl

theorem numberToken_append (h : Delimited rest) {negative : Bool} {token : Token}
    {after : List Char} (hcs : numberToken negative cs = .ok (token, after)) :
    numberToken negative (cs ++ rest) = .ok (token, after ++ rest) := by
  simp only [numberToken, bind_eq_ok, pure_eq_ok, Prod.exists, Prod.mk.injEq] at hcs ⊢
  obtain ⟨whole, r₁, hwhole, fraction, r₂, hfraction, exponent, r₃, hexponent, rfl, rfl⟩ := hcs
  exact ⟨whole, _, wholePart_append h hwhole, fraction, _, fractionPart_append h hfraction,
    exponent, _, exponentPart_append h hexponent, rfl, rfl⟩

theorem afterWord_append {word after : List Char} (hcs : afterWord word cs = .ok after) :
    afterWord word (cs ++ rest) = .ok (after ++ rest) := by
  induction word generalizing cs with
  | nil =>
    cases hcs
    rfl
  | cons w word ih =>
    cases cs with
    | nil => cases hcs
    | cons c cs =>
      rw [afterWord] at hcs
      rw [List.cons_append, afterWord]
      split_ifs at hcs ⊢ with hc
      exact ih hcs

end Append

/-! ## Plain tokens -/

/-- The rest of the tokens after one that may have failed. -/
def tokensAfter : Except Token (Token × List Char) → List Token
  | .ok (token, rest) => token :: tokens rest
  | .error stop => [stop]

/-- The token of a word whose first letter was read, and what follows it. -/
def wordToken (word : List Char) (value : Json) (cs : List Char) :
    Except Token (Token × List Char) :=
  match afterWord word cs with
  | .ok rest => .ok (.plain (.ok value), rest)
  | .error fault => .error (.stop false (.both fault))

/-- The plain token that starts with the character, and what follows it. -/
def plainToken? (c : Char) (cs : List Char) : Option (Except Token (Token × List Char)) :=
  if c = 'n' then some (wordToken ['u', 'l', 'l'] .null cs)
  else if c = 't' then some (wordToken ['r', 'u', 'e'] (.bool true) cs)
  else if c = 'f' then some (wordToken ['a', 'l', 's', 'e'] (.bool false) cs)
  else if c = '-' then some (numberToken true cs)
  else if Text.isDigit c then some (numberToken false (c :: cs))
  else none

/-- The characters with which no plain token starts. -/
def marks : List Char := [' ', '\n', '\t', '\r', '[', ']', '\x7b', '\x7d', ',', ':', '"']

theorem plainToken?_of_mem_marks {c : Char} (hc : c ∈ marks) (cs : List Char) :
    plainToken? c cs = none := by
  have every : marks.all fun d => d ∉ ['n', 't', 'f', '-'] ∧ Text.isDigit d = false := by decide
  obtain ⟨hword, hdigit⟩ := of_decide_eq_true (List.all_eq_true.1 every c hc)
  simp only [List.mem_cons, List.not_mem_nil, or_false, not_or] at hword
  simp [plainToken?, hword, hdigit]

/-- A text that does not start with a mark starts with a plain token, or cannot be read. -/
theorem tokens_of_not_mem_marks {c : Char} (hc : c ∉ marks) (cs : List Char) :
    tokens (c :: cs) =
      match plainToken? c cs with
      | some outcome => tokensAfter outcome
      | none => [.stop false (.both .noValue)] := by
  simp only [marks, List.mem_cons, List.not_mem_nil, or_false, not_or] at hc
  rw [tokens, plainToken?]
  simp only [isJsonBlank, hc, decide_false, Bool.or_self, Bool.false_eq_true, if_false]
  split_ifs
  · simp only [wordToken]
    split <;> simp_all [tokensAfter]
  · simp only [wordToken]
    split <;> simp_all [tokensAfter]
  · simp only [wordToken]
    split <;> simp_all [tokensAfter]
  · split <;> simp_all [tokensAfter]
  · split <;> simp_all [tokensAfter]
  · rfl

theorem tokens_of_plainToken? {c : Char} {cs : List Char}
    {outcome : Except Token (Token × List Char)} (h : plainToken? c cs = some outcome) :
    tokens (c :: cs) = tokensAfter outcome := by
  have hc : c ∉ marks := by
    intro hc
    rw [plainToken?_of_mem_marks hc] at h
    cases h
  rw [tokens_of_not_mem_marks hc, h]

theorem tokens_blank {c : Char} (hc : isJsonBlank c) (cs : List Char) :
    tokens (c :: cs) = tokens cs := by
  rw [tokens, if_pos hc]

/-- A mark that is no blank is a token, or starts one that is not plain. -/
theorem tokens_mark {c : Char} (hc : c ∈ marks) (hblank : ¬isJsonBlank c) (cs : List Char) :
    ∃ token ts, tokens (c :: cs) = token :: ts ∧ ∀ v, token ≠ .plain v := by
  simp only [marks, List.mem_cons, List.not_mem_nil, or_false] at hc
  rcases hc with rfl | rfl | rfl | rfl | rfl | rfl | rfl | rfl | rfl | rfl | rfl
  · exact absurd rfl hblank
  · exact absurd rfl hblank
  · exact absurd rfl hblank
  · exact absurd rfl hblank
  · exact ⟨_, _, tokens_openList cs, by simp⟩
  · exact ⟨_, _, tokens_closeList cs, by simp⟩
  · exact ⟨_, _, tokens_openObject cs, by simp⟩
  · exact ⟨_, _, tokens_closeObject cs, by simp⟩
  · exact ⟨_, _, tokens_comma cs, by simp⟩
  · exact ⟨_, _, tokens_colon cs, by simp⟩
  · rw [tokens]
    simp only [isJsonBlank, Char.reduceEq, decide_false, Bool.or_self, Bool.false_eq_true,
      if_false, if_true]
    split
    · exact ⟨_, _, rfl, by simp⟩
    · exact ⟨_, _, rfl, by simp⟩

/-- Characters without tokens are blanks. -/
theorem tokens_append_of_nil {cs : List Char} (h : tokens cs = []) (rest : List Char) :
    tokens (cs ++ rest) = tokens rest := by
  induction cs with
  | nil => rfl
  | cons c cs ih =>
    by_cases hblank : isJsonBlank c
    · rw [tokens_blank hblank] at h
      rw [List.cons_append, tokens_blank hblank, ih h]
    · exfalso
      by_cases hc : c ∈ marks
      · obtain ⟨token, ts, hts, -⟩ := tokens_mark hc hblank cs
        rw [hts] at h
        cases h
      · rw [tokens_of_not_mem_marks hc] at h
        split at h
        · rename_i outcome _
          cases outcome <;> cases h
        · cases h

theorem wordToken_append {word cs after : List Char} {value : Json} {token : Token}
    (h : wordToken word value cs = .ok (token, after)) (rest : List Char) :
    wordToken word value (cs ++ rest) = .ok (token, after ++ rest) := by
  unfold wordToken at h
  split at h
  · rename_i after' hafter
    cases h
    rw [wordToken, afterWord_append hafter]
  · cases h

/-- A plain token does not hang on what follows the value. -/
theorem plainToken?_append {c : Char} {cs rest after : List Char} {token : Token}
    (h : plainToken? c cs = some (.ok (token, after))) (hrest : Delimited rest) :
    plainToken? c (cs ++ rest) = some (.ok (token, after ++ rest)) := by
  unfold plainToken? at h ⊢
  split_ifs at h ⊢ <;> rw [Option.some.injEq] at h ⊢
  · exact wordToken_append h rest
  · exact wordToken_append h rest
  · exact wordToken_append h rest
  · exact numberToken_append hrest h
  · exact numberToken_append hrest h

theorem missingDigits_ne_plain (cs : List Char) (v : Except SyntaxFault Json) :
    missingDigits cs ≠ .plain v := by
  unfold missingDigits
  split_ifs <;> simp

/-- Where a number fails there is no plain token. -/
theorem numberToken_ne_error_plain (negative : Bool) (cs : List Char)
    (v : Except SyntaxFault Json) : numberToken negative cs ≠ .error (.plain v) := by
  intro h
  simp only [numberToken, bind_eq_error] at h
  rcases h with h | ⟨whole, -, h | ⟨fraction, -, h | ⟨exponent, -, h⟩⟩⟩
  · unfold wholePart at h
    grind [missingDigits_ne_plain]
  · unfold fractionPart at h
    grind [missingDigits_ne_plain]
  · unfold exponentPart at h
    grind [missingDigits_ne_plain]
  · cases h

theorem wordToken_ne_error_plain (word : List Char) (value : Json) (cs : List Char)
    (v : Except SyntaxFault Json) : wordToken word value cs ≠ .error (.plain v) := by
  unfold wordToken
  split <;> simp

theorem plainToken?_ne_error_plain (c : Char) (cs : List Char) (v : Except SyntaxFault Json) :
    plainToken? c cs ≠ some (.error (.plain v)) := by
  intro h
  unfold plainToken? at h
  split_ifs at h <;> rw [Option.some.injEq] at h
  · exact wordToken_ne_error_plain _ _ _ _ h
  · exact wordToken_ne_error_plain _ _ _ _ h
  · exact wordToken_ne_error_plain _ _ _ _ h
  · exact numberToken_ne_error_plain _ _ _ h
  · exact numberToken_ne_error_plain _ _ _ h

/-- What is read as one plain token is read so wherever a value may stand. -/
theorem tokens_append_of_plain {cs rest : List Char} {v : Except SyntaxFault Json}
    (h : tokens cs = [.plain v]) (hrest : Delimited rest) :
    tokens (cs ++ rest) = .plain v :: tokens rest := by
  induction cs with
  | nil =>
    rw [tokens] at h
    cases h
  | cons c cs ih =>
    by_cases hblank : isJsonBlank c
    · rw [tokens_blank hblank] at h
      rw [List.cons_append, tokens_blank hblank, ih h]
    · by_cases hc : c ∈ marks
      · obtain ⟨token, ts, hts, hplain⟩ := tokens_mark hc hblank cs
        rw [hts] at h
        cases h
        exact absurd rfl (hplain v)
      · rw [tokens_of_not_mem_marks hc] at h
        split at h
        · rename_i outcome hplain
          cases outcome with
          | error stop =>
            simp only [tokensAfter, List.cons.injEq, and_true] at h
            subst h
            exact absurd hplain (plainToken?_ne_error_plain c cs v)
          | ok found =>
            obtain ⟨token, after⟩ := found
            simp only [tokensAfter, List.cons.injEq] at h
            obtain ⟨rfl, hafter⟩ := h
            rw [List.cons_append, tokens_of_plainToken? (plainToken?_append hplain hrest)]
            -- What stands between the token and the rest has no tokens, so it is blank.
            rw [tokensAfter, tokens_append_of_nil hafter]
        · cases h

end ColumnIndex.Json
