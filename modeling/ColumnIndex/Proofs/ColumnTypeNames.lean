import ColumnIndex.ColumnType
import ColumnIndex.Proofs.Outcome
import ColumnIndex.Proofs.Texts.SpacedParts

/-!
# Names of column types

The name of a type is made of names of kinds and angle brackets. A text is read as the type if it
has these parts in their order, in any case and with blanks around each of them; a blank within a
name, a bracket too many or one too few makes it the name of no type. Reading takes the last
bracket off and reads what is left, so both directions follow the nesting of the type.

## Main definitions

* `ColumnType.parts` — the names and brackets that the name of a type is made of.
* `ColumnType.IsSpelledBy` — the texts that spell a type.

Main statement: `ColumnType.parse_eq_ok_iff_spelled`.
-/
namespace ColumnIndex

open Outcome Text

namespace ScalarType

variable {t : ScalarType} {name : String}

theorem mem_all (t : ScalarType) : t ∈ all := by
  cases t <;> decide

@[simp] theorem ofName?_eq_some : ofName? name = some t ↔ t.name = name := by
  constructor
  · intro h
    have hfound : (t.name == name) = true :=
      List.find?_some (p := fun t : ScalarType => t.name == name) h
    exact eq_of_beq hfound
  · rintro rfl
    have every : ∀ t ∈ all, ofName? t.name = some t := by decide
    exact every t t.mem_all

theorem name_injective : Function.Injective ScalarType.name := by
  intro t t' h
  have hname := ofName?_eq_some.2 h
  rw [ofName?_eq_some.2 rfl, Option.some.injEq] at hname
  exact hname.symm

/-- Names are written in small letters. -/
theorem isVisible_name {c : Char} (h : c ∈ t.name.toList) : IsVisible c ∧ c.toLower = c := by
  have every : ∀ t ∈ all, t.name.toList.Forall fun c => IsVisible c ∧ c.toLower = c := by decide
  exact List.forall_iff_forall_mem.1 (every t t.mem_all) c h

theorem name_ne_nil (t : ScalarType) : t.name.toList ≠ [] := by
  have every : ∀ t ∈ all, t.name.toList ≠ [] := by decide
  exact every t t.mem_all

end ScalarType

namespace ColumnType

/-! ## Parts of a name -/

/-- The word for lists. -/
def listWord : List Char := ['l', 'i', 's', 't']

/-- The word for sets. -/
def setWord : List Char := ['s', 'e', 't']

/-- A name in front of angle brackets with parts between them. -/
def bracketed (word : List Char) (between : List (List Char)) : List (List Char) :=
  word :: ['<'] :: (between ++ [['>']])

/-- The names and brackets that the name of a type is made of. -/
def parts : ColumnType → List (List Char)
  | scalar t => [t.name.toList]
  | list element => bracketed listWord element.parts
  | set element => bracketed setWord element.parts

/-- The name of a type is its parts without blanks. -/
theorem flatten_parts (t : ColumnType) : t.parts.flatten = t.text.toList := by
  induction t with
  | scalar t => simp [parts, text]
  | list element ih => simp [parts, bracketed, text, listWord, ih, String.toList_append]
  | set element ih => simp [parts, bracketed, text, setWord, ih, String.toList_append]

/-- The text spells the type: its parts in any case, with blanks around them. -/
def IsSpelledBy (t : ColumnType) (s : String) : Prop := Spaced t.parts s.toList

/-! ## What the reader takes apart -/

variable {word cs rest inner : List Char} {between : List (List Char)}

theorem after?_eq_some : after? word cs = some rest ↔ cs = word ++ rest := by
  induction word generalizing cs with
  | nil => simp [after?]
  | cons w ws ih =>
    cases cs with
    | nil => simp [after?]
    | cons c cs =>
      rw [after?]
      split
      · rename_i h
        rw [ih, h, List.cons_append, List.cons.injEq]
        simp
      · rename_i h
        simp [Ne.symm h]

/-- What stands between the brackets behind the word. -/
theorem inside?_eq_some : inside? word cs = some inner ↔
    ∃ blanks, AllBlank blanks ∧ cs = word ++ blanks ++ '<' :: (inner ++ ['>']) := by
  have hopen : isBlank '<' = false := by decide
  simp only [inside?, bind, Option.bind_eq_some_iff, after?_eq_some]
  constructor
  · rintro ⟨rest, rfl, body, hbody, hlast⟩
    split at hlast
    · rename_i hclose
      obtain ⟨inner', rfl⟩ := List.getLast?_eq_some_iff.1 hclose
      rw [List.dropLast_concat, Option.some.injEq] at hlast
      refine ⟨rest.takeWhile isBlank, allBlank_takeWhile rest, ?_⟩
      rw [List.append_assoc, ← hlast, ← List.singleton_append (l := inner' ++ ['>']), ← hbody,
        trimStart, List.takeWhile_append_dropWhile]
    · cases hlast
  · rintro ⟨blanks, hblanks, rfl⟩
    refine ⟨_, List.append_assoc .., inner ++ ['>'], ?_, by simp⟩
    rw [trimStart, List.dropWhile_append_of_pos hblanks,
      List.dropWhile_cons_of_neg (by simp [hopen])]
    rfl

/-- The reader takes blanks off the ends of a text in small letters. -/
theorem folded_eq (cs : List Char) : folded cs = trimChars (cs.map Char.toLower) :=
  (trimChars_map_toLower cs).symm

/-- What is read in the folded text is spelled in the text. -/
theorem spaced_of_folded (h : Spaced between (folded cs)) : Spaced between cs :=
  spaced_of_trimChars (spaced_map_toLower.1 h)

/-! ## Words -/

/-- A text spells a word with parts in brackets if the reader finds the word, and between the
brackets a text that spells the parts. -/
theorem spaced_bracketed_iff (h : IsWord word) : Spaced (bracketed word between) cs ↔
    ∃ inner, inside? word (folded cs) = some inner ∧ Spaced between inner := by
  constructor
  · rintro ⟨before, written, rest, rfl, hbefore, hwritten, blanks, opening, rest, rfl, hblanks,
      hopening, hrest⟩
    obtain ⟨body, rest, rfl, hbody, hrest⟩ := spaced_append.1 hrest
    obtain ⟨gap, closing, after, rfl, hgap, hafter, hclosing⟩ := spaced_singleton.1 hrest
    -- The blanks in front of the closing bracket belong to what is read next.
    refine ⟨(body ++ gap).map Char.toLower, inside?_eq_some.2
      ⟨blanks.map Char.toLower, allBlank_map_toLower.2 hblanks, ?_⟩,
      spaced_map_toLower.2 (hbody.append_blanks hgap)⟩
    rw [SameButCase, h.map_toLower] at hwritten
    have hopening : opening.map Char.toLower = ['<'] := hopening
    have hclosing : closing.map Char.toLower = ['>'] := hclosing
    have hmap :
        (before ++ written ++ (blanks ++ opening ++ (body ++ (gap ++ closing ++ after)))).map
            Char.toLower
          = before.map Char.toLower ++ (word ++ blanks.map Char.toLower ++
              '<' :: ((body ++ gap).map Char.toLower ++ ['>'])) ++ after.map Char.toLower := by
      simp [hwritten, hopening, hclosing]
    obtain ⟨first, hfirst, hvisible⟩ := h.exists_head?
    rw [folded_eq, hmap]
    apply trimChars_between (allBlank_map_toLower.2 hbefore) (allBlank_map_toLower.2 hafter)
    · refine ⟨first, ?_, hvisible⟩
      rw [List.append_assoc, List.head?_append_of_ne_nil _ h.ne_nil]
      exact hfirst
    · refine ⟨'>', ?_, by decide⟩
      rw [← List.cons_append, ← List.append_assoc, List.getLast?_concat]
      rfl
  · rintro ⟨inner, hinner, hbetween⟩
    obtain ⟨blanks, hblanks, hcs⟩ := inside?_eq_some.1 hinner
    apply spaced_of_folded
    have hclosing : Spaced [['>']] ['>'] :=
      spaced_singleton.2 ⟨[], ['>'], [], rfl, allBlank_nil, allBlank_nil, rfl⟩
    refine ⟨[], word, blanks ++ '<' :: (inner ++ ['>']), ?_, allBlank_nil, rfl, blanks, ['<'],
      inner ++ ['>'], ?_, hblanks, rfl, spaced_append.2 ⟨inner, ['>'], rfl, hbetween, hclosing⟩⟩
    · rw [hcs, List.nil_append, List.append_assoc]
    · rw [List.append_assoc, List.singleton_append]

theorem isWord_listWord : IsWord listWord :=
  ⟨by decide, List.forall_iff_forall_mem.1 (by decide)⟩

theorem isWord_setWord : IsWord setWord :=
  ⟨by decide, List.forall_iff_forall_mem.1 (by decide)⟩

theorem isWord_name (t : ScalarType) : IsWord t.name.toList :=
  ⟨t.name_ne_nil, fun _ => ScalarType.isVisible_name⟩

/-! ## Reading -/

variable {t : ScalarType} {element : ColumnType}

/-- Lists are not taken for sets. -/
theorem inside?_listWord_of_setWord (h : inside? setWord cs = some inner) :
    inside? listWord cs = none := by
  obtain ⟨blanks, -, rfl⟩ := inside?_eq_some.1 h
  rfl

/-- Names are not taken for lists or sets. -/
theorem inside?_name (t : ScalarType) :
    inside? listWord t.name.toList = none ∧ inside? setWord t.name.toList = none := by
  have every : ∀ t ∈ ScalarType.all,
      inside? listWord t.name.toList = none ∧ inside? setWord t.name.toList = none := by decide
  exact every t t.mem_all

/-- What the reader does with a text: it goes on between the brackets of a list, or else of a set,
or else it looks the whole up. -/
inductive Step (cs : List Char) : Prop
  | list {inner : List Char} (h : inside? listWord (folded cs) = some inner)
      (hread : parseChars cs = (parseChars inner).map list)
  | set {inner : List Char} (h : inside? listWord (folded cs) = none)
      (h' : inside? setWord (folded cs) = some inner)
      (hread : parseChars cs = (parseChars inner).map set)
  | name {t : ScalarType} (h : folded cs = t.name.toList) (hread : parseChars cs = .ok (scalar t))
  | unknown (h : inside? listWord (folded cs) = none) (h' : inside? setWord (folded cs) = none)
      (hname : ∀ t : ScalarType, folded cs ≠ t.name.toList)
      (hread : parseChars cs = .error ⟨String.ofList (folded cs)⟩)

theorem step (cs : List Char) : Step cs := by
  have hread := parseChars.eq_def cs
  split at hread
  · rename_i inner h
    exact .list h hread
  · rename_i h
    split at hread
    · rename_i inner h'
      exact .set h h' hread
    · rename_i h'
      split at hread
      · rename_i t hname
        refine .name ?_ hread
        rw [ScalarType.ofName?_eq_some.1 hname, String.toList_ofList]
      · rename_i hname
        refine .unknown h h' ?_ hread
        intro t ht
        rw [ht, String.ofList_toList, ScalarType.ofName?_eq_some.2 rfl] at hname
        cases hname

theorem parseChars_eq_scalar :
    parseChars cs = .ok (scalar t) ↔ folded cs = t.name.toList := by
  have hcollection : ∀ {inner word}, inside? word (folded cs) = some inner →
      inside? word t.name.toList = none → folded cs ≠ t.name.toList := by
    intro inner word h h' heq
    rw [heq, h'] at h
    cases h
  cases step cs with
  | list h hread => simp [hread, map_eq_ok, hcollection h (inside?_name t).1]
  | set h h' hread => simp [hread, map_eq_ok, hcollection h' (inside?_name t).2]
  | name h hread =>
    rw [hread, h, String.toList_inj, ScalarType.name_injective.eq_iff, Except.ok.injEq,
      scalar.injEq]
  | unknown h h' hname hread => simp [hread, hname t]

theorem parseChars_eq_list : parseChars cs = .ok (list element) ↔
    ∃ inner, inside? listWord (folded cs) = some inner ∧ parseChars inner = .ok element := by
  cases step cs with
  | list h hread => simp [hread, map_eq_ok, h]
  | set h h' hread => simp [hread, map_eq_ok, h]
  | name h hread => simp [hread, h, inside?_name]
  | unknown h h' hname hread => simp [hread, h]

theorem parseChars_eq_set : parseChars cs = .ok (set element) ↔
    ∃ inner, inside? setWord (folded cs) = some inner ∧ parseChars inner = .ok element := by
  cases step cs with
  | list h hread =>
    have hset : inside? setWord (folded cs) = none := by
      cases hset : inside? setWord (folded cs) with
      | none => rfl
      | some inner =>
        rw [inside?_listWord_of_setWord hset] at h
        cases h
    simp [hread, map_eq_ok, hset]
  | set h h' hread => simp [hread, map_eq_ok, h']
  | name h hread => simp [hread, h, inside?_name]
  | unknown h h' hname hread => simp [hread, h']

/-- Reading follows the parts of a name. -/
theorem parseChars_eq_ok {t : ColumnType} : parseChars cs = .ok t ↔ Spaced t.parts cs := by
  induction t generalizing cs with
  | scalar t =>
    rw [parseChars_eq_scalar, ColumnType.parts, (isWord_name t).spaced_singleton_iff, folded]
  | list element ih =>
    rw [parseChars_eq_list, ColumnType.parts, spaced_bracketed_iff isWord_listWord]
    simp only [ih]
  | set element ih =>
    rw [parseChars_eq_set, ColumnType.parts, spaced_bracketed_iff isWord_setWord]
    simp only [ih]

/-- The name of a type is read as the type. A text is read as a type if it spells it, that is, if it
is the name but for the case of letters and for blanks around names and brackets; a text that spells
no type is a fault of the schema. -/
theorem parse_eq_ok_iff_spelled (t : ColumnType) :
    parse t.text = .ok t ∧ t.parts.flatten = t.text.toList ∧
      ∀ s : String, (parse s = .ok t ↔ t.IsSpelledBy s) ∧
        ((∃ fault, parse s = .error fault ∧ (report fault).errorClass = .schemaValidation) ↔
          ∀ t' : ColumnType, ¬t'.IsSpelledBy s) := by
  have hread : ∀ (s : String) (t : ColumnType), parse s = .ok t ↔ t.IsSpelledBy s :=
    fun _ _ => parseChars_eq_ok
  refine ⟨?_, t.flatten_parts, fun s => ⟨hread s t, ?_⟩⟩
  · rw [hread, IsSpelledBy, ← flatten_parts]
    exact spaced_flatten t.parts
  · constructor
    · rintro ⟨fault, h, -⟩ t' ht'
      rw [(hread s t').2 ht'] at h
      cases h
    · intro hnone
      cases h : parse s with
      | ok t' => exact absurd ((hread s t').1 h) (hnone t')
      | error fault => exact ⟨fault, rfl, rfl⟩

example : parse " List <\tset<INT> >" = .ok (.list (.set (.scalar .int))) := by cbv

end ColumnType

end ColumnIndex
