import ColumnIndex.Text.Hex

/-!
# TOML tokens

A TOML text falls into words, quoted texts and marks. Blanks and ends of lines are tokens too,
because they end what comes before them. Comments are passed over.

## Main definitions

* `Toml.Token` — the tokens.
* `Toml.tokens?` — the tokens of a text, unless a quoted text, a comment or a character in it is
  not allowed.
-/
namespace ColumnIndex.Toml

/-- The pieces of a TOML text. -/
inductive Token
  /-- Spaces and tabs; whether it is a single space. -/
  | blank (single : Bool)
  | lineEnd
  | dot
  | equals
  | comma
  | openBracket
  | closeBracket
  | openBrace
  | closeBrace
  /-- Characters that have no meaning as marks. -/
  | word (cs : List Char)
  /-- A text in single quote characters. -/
  | quoted (s : String)
  /-- A text in triple quote characters. -/
  | longQuoted (s : String)

/-- Whether a character is a space or a tab. -/
def isSpace (c : Char) : Bool := c = ' ' || c = '\t'

/-- Whether a character may stand in a comment or a quoted text: controls other than the tab may
not. -/
def isAllowed (c : Char) : Bool := c = '\t' || (32 ≤ c.toNat && c.toNat != 127)

/-- Whether a character ends a word. -/
def endsWord (c : Char) : Bool :=
  isSpace c || c = '\n' || c = '\r' || c = '.' || c = '=' || c = ',' || c = '[' || c = ']'
    || c = '\x7b' || c = '\x7d' || c = '#'

/-! ## Quoted texts -/

/-- The character with the number that hexadecimal digits spell; there is none for half of a
surrogate pair. -/
def numbered? (digits : List Char) : Option Char :=
  (Text.hexNumber? digits).bind fun n =>
    if h : n.isValidChar then some (Char.ofNatAux n h) else none

/-- The character that a backslash and a letter stand for. -/
def simpleEscape? (c : Char) : Option Char :=
  if c = '"' ∨ c = '\\' then some c
  else if c = 'b' then some '\x08'
  else if c = 't' then some '\t'
  else if c = 'n' then some '\n'
  else if c = 'f' then some '\x0c'
  else if c = 'r' then some '\r'
  else if c = 'e' then some '\x1b'
  else none

/-- How many hexadecimal digits follow a backslash and a letter. -/
def escapeWidth? (c : Char) : Option Nat :=
  if c = 'x' then some 2
  else if c = 'u' then some 4
  else if c = 'U' then some 8
  else none

/-- The character behind a backslash, and what follows it. -/
def escape? : List Char → Option (Char × List Char)
  | [] => none
  | c :: cs =>
    match escapeWidth? c with
    | some width =>
      if cs.length < width then none
      else (numbered? (cs.take width)).map (·, cs.drop width)
    | none => (simpleEscape? c).map (·, cs)

theorem escape?_length {cs rest : List Char} {c : Char} (h : escape? cs = some (c, rest)) :
    rest.length < cs.length := by
  cases cs with
  | nil => simp [escape?] at h
  | cons d ds =>
    simp only [escape?] at h
    split at h
    · rename_i width _
      split at h
      · contradiction
      · obtain ⟨e, -, he⟩ := Option.map_eq_some_iff.1 h
        simp only [Prod.mk.injEq] at he
        obtain ⟨-, rfl⟩ := he
        simp only [List.length_drop, List.length_cons]
        omega
    · obtain ⟨e, -, he⟩ := Option.map_eq_some_iff.1 h
      simp only [Prod.mk.injEq] at he
      obtain ⟨-, rfl⟩ := he
      simp

/-- The rest of a text in double quotes on one line, after the characters read so far, in
reverse. -/
def shortText? (read cs : List Char) : Option (List Char × List Char) :=
  match cs with
  | [] => none
  | '"' :: rest => some (read.reverse, rest)
  | '\\' :: cs =>
    match _h : escape? cs with
    | none => none
    | some (c, rest) => shortText? (c :: read) rest
  | c :: cs => if isAllowed c then shortText? (c :: read) cs else none
termination_by cs.length
decreasing_by
  · have := escape?_length _h
    simp only [List.length_cons]
    omega
  · simp

/-- The rest of a text in single quotes on one line. -/
def shortLiteral? (read : List Char) : List Char → Option (List Char × List Char)
  | [] => none
  | '\'' :: rest => some (read.reverse, rest)
  | c :: cs => if isAllowed c then shortLiteral? (c :: read) cs else none

/-- The end of a text in triple quotes: up to two more quotes before the closing ones belong to
the text. -/
def closeLong (quote : Char) (read rest : List Char) : List Char × List Char :=
  match rest with
  | a :: b :: rest' =>
    if a = quote ∧ b = quote then ((quote :: quote :: read).reverse, rest')
    else if a = quote then ((quote :: read).reverse, b :: rest')
    else (read.reverse, a :: b :: rest')
  | [a] => if a = quote then ((quote :: read).reverse, []) else (read.reverse, [a])
  | [] => (read.reverse, [])

theorem closeLong_length (quote : Char) (read rest : List Char) :
    (closeLong quote read rest).2.length ≤ rest.length := by
  unfold closeLong
  grind

/-- What follows a run of blanks and line ends. -/
def skipLines : List Char → List Char
  | '\r' :: '\n' :: cs => skipLines cs
  | c :: cs => if isSpace c ∨ c = '\n' then skipLines cs else c :: cs
  | [] => []

theorem skipLines_length (cs : List Char) : (skipLines cs).length ≤ cs.length := by
  fun_induction skipLines cs <;> simp only [List.length_cons, List.length_nil] <;> omega

/-- What follows a backslash at the end of a line: the line end with the blanks before it, and all
blanks and line ends after it, are no part of the text. -/
def continued? (cs : List Char) : Option (List Char) :=
  match cs.dropWhile isSpace with
  | '\n' :: rest => some (skipLines rest)
  | '\r' :: '\n' :: rest => some (skipLines rest)
  | _ => none

theorem continued?_length {cs rest : List Char} (h : continued? cs = some rest) :
    rest.length < cs.length := by
  have hle : (cs.dropWhile isSpace).length ≤ cs.length := (List.dropWhile_sublist _).length_le
  unfold continued? at h
  split at h <;> simp only [Option.some.injEq, reduceCtorEq] at h
  · rename_i r hr
    have := skipLines_length r
    rw [hr, List.length_cons] at hle
    subst h
    omega
  · rename_i r hr
    have := skipLines_length r
    rw [hr, List.length_cons, List.length_cons] at hle
    subst h
    omega

/-- Whether a character may stand in a text in triple quotes, before the given ones. -/
def isAllowedLong (c : Char) (cs : List Char) : Bool :=
  isAllowed c || c = '\n' || (c = '\r' && cs.head? == some '\n')

/-- The rest of a text in triple double quotes. -/
def longText? (read cs : List Char) : Option (List Char × List Char) :=
  match cs with
  | [] => none
  | '"' :: '"' :: '"' :: rest => some (closeLong '"' read rest)
  | '\\' :: cs =>
    match _h : continued? cs with
    | some rest => longText? read rest
    | none =>
      match _h : escape? cs with
      | none => none
      | some (c, rest) => longText? (c :: read) rest
  | c :: cs => if isAllowedLong c cs then longText? (c :: read) cs else none
termination_by cs.length
decreasing_by
  · have := continued?_length _h
    simp only [List.length_cons]
    omega
  · have := escape?_length _h
    simp only [List.length_cons]
    omega
  · simp

/-- The rest of a text in triple single quotes. -/
def longLiteral? (read : List Char) : List Char → Option (List Char × List Char)
  | [] => none
  | '\'' :: '\'' :: '\'' :: rest => some (closeLong '\'' read rest)
  | c :: cs => if isAllowedLong c cs then longLiteral? (c :: read) cs else none

theorem shortText?_length {read cs : List Char} {r : List Char × List Char}
    (h : shortText? read cs = some r) : r.2.length < cs.length := by
  fun_induction shortText? read cs with
  | case1 => simp at h
  | case2 => grind
  | case3 => simp at h
  | case4 _ _ _ _ he ih =>
    have := ih h
    have := escape?_length he
    simp only [List.length_cons]
    omega
  | case5 _ _ _ _ _ _ ih =>
    have := ih h
    simp only [List.length_cons]
    omega
  | case6 => simp at h

theorem shortLiteral?_length {read cs : List Char} {r : List Char × List Char}
    (h : shortLiteral? read cs = some r) : r.2.length < cs.length := by
  fun_induction shortLiteral? read cs with
  | case1 => simp at h
  | case2 => grind
  | case3 _ _ _ _ _ ih =>
    have := ih h
    simp only [List.length_cons]
    omega
  | case4 => simp at h

theorem longText?_length {read cs : List Char} {r : List Char × List Char}
    (h : longText? read cs = some r) : r.2.length < cs.length := by
  fun_induction longText? read cs with
  | case1 => simp at h
  | case2 read rest =>
    have := closeLong_length '"' read rest
    simp only [Option.some.injEq] at h
    subst h
    simp only [List.length_cons]
    omega
  | case3 _ _ _ he ih =>
    have := ih h
    have := continued?_length he
    simp only [List.length_cons]
    omega
  | case4 => simp at h
  | case5 _ _ _ _ _ he ih =>
    have := ih h
    have := escape?_length he
    simp only [List.length_cons]
    omega
  | case6 _ _ _ _ _ _ ih =>
    have := ih h
    simp only [List.length_cons]
    omega
  | case7 => simp at h

theorem longLiteral?_length {read cs : List Char} {r : List Char × List Char}
    (h : longLiteral? read cs = some r) : r.2.length < cs.length := by
  fun_induction longLiteral? read cs with
  | case1 => simp at h
  | case2 read rest =>
    have := closeLong_length '\'' read rest
    simp only [Option.some.injEq] at h
    subst h
    simp only [List.length_cons]
    omega
  | case3 _ _ _ _ _ ih =>
    have := ih h
    simp only [List.length_cons]
    omega
  | case4 => simp at h

/-- A text in triple quotes without a line end at its very start. -/
def dropFirstLineEnd : List Char → List Char
  | '\n' :: cs => cs
  | '\r' :: '\n' :: cs => cs
  | cs => cs

theorem dropFirstLineEnd_length (cs : List Char) :
    (dropFirstLineEnd cs).length ≤ cs.length := by
  unfold dropFirstLineEnd
  split <;> grind

/-! ## All tokens -/

/-- A quoted text at the start of the characters, and what follows it. -/
def quotedToken? (cs : List Char) : Option (Token × List Char) :=
  match cs with
  | '"' :: '"' :: '"' :: rest =>
    (longText? [] (dropFirstLineEnd rest)).map fun (s, rest) =>
      (.longQuoted (String.ofList s), rest)
  | '\'' :: '\'' :: '\'' :: rest =>
    (longLiteral? [] (dropFirstLineEnd rest)).map fun (s, rest) =>
      (.longQuoted (String.ofList s), rest)
  | '"' :: rest => (shortText? [] rest).map fun (s, rest) => (.quoted (String.ofList s), rest)
  | '\'' :: rest => (shortLiteral? [] rest).map fun (s, rest) => (.quoted (String.ofList s), rest)
  | _ => none

theorem quotedToken?_length {cs rest : List Char} {t : Token}
    (h : quotedToken? cs = some (t, rest)) : rest.length < cs.length := by
  unfold quotedToken? at h
  split at h
  · rename_i r
    obtain ⟨x, hx, he⟩ := Option.map_eq_some_iff.1 h
    have := longText?_length hx
    have := dropFirstLineEnd_length r
    grind
  · rename_i r
    obtain ⟨x, hx, he⟩ := Option.map_eq_some_iff.1 h
    have := longLiteral?_length hx
    have := dropFirstLineEnd_length r
    grind
  · obtain ⟨x, hx, he⟩ := Option.map_eq_some_iff.1 h
    have := shortText?_length hx
    grind
  · obtain ⟨x, hx, he⟩ := Option.map_eq_some_iff.1 h
    have := shortLiteral?_length hx
    grind
  · contradiction

/-- The token of a mark. -/
def mark? (c : Char) : Option Token :=
  if c = '.' then some .dot
  else if c = '=' then some .equals
  else if c = ',' then some .comma
  else if c = '[' then some .openBracket
  else if c = ']' then some .closeBracket
  else if c = '\x7b' then some .openBrace
  else if c = '\x7d' then some .closeBrace
  else if c = '\n' then some .lineEnd
  else none

/-- What follows the longest run of characters with a property is not longer than all of them. -/
theorem length_dropWhile_le (p : Char → Bool) (cs : List Char) :
    (cs.dropWhile p).length ≤ cs.length := (List.dropWhile_sublist _).length_le

/-- The tokens of the characters. -/
def tokensOf? : List Char → Option (List Token)
  | [] => some []
  | c :: cs =>
    if isSpace c then
      (tokensOf? (cs.dropWhile isSpace)).map
        (.blank (c = ' ' && (cs.takeWhile isSpace).isEmpty) :: ·)
    else if c = '#' then
      -- A character that may not stand in a comment begins a word, which nothing accepts.
      tokensOf? (cs.dropWhile isAllowed)
    else if c = '"' ∨ c = '\'' then
      match _h : quotedToken? (c :: cs) with
      | none => none
      | some (token, rest) => (tokensOf? rest).map (token :: ·)
    else if c = '\r' then
      if cs.head? = some '\n' then tokensOf? cs else none
    else
      match mark? c with
      | some token => (tokensOf? cs).map (token :: ·)
      | none =>
        (tokensOf? (cs.dropWhile (!endsWord ·))).map
          (.word (c :: cs.takeWhile (!endsWord ·)) :: ·)
termination_by cs => cs.length
decreasing_by
  · have := length_dropWhile_le isSpace cs
    simp only [List.length_cons]
    omega
  · have := length_dropWhile_le isAllowed cs
    simp only [List.length_cons]
    omega
  · exact quotedToken?_length _h
  · simp
  · simp
  · have := length_dropWhile_le (!endsWord ·) cs
    simp only [List.length_cons]
    omega

/-- The tokens of a text, of which a byte order mark at the start is no part. -/
def tokens? (text : String) : Option (List Token) :=
  match text.toList with
  | '\ufeff' :: cs => tokensOf? cs
  | cs => tokensOf? cs

end ColumnIndex.Toml
