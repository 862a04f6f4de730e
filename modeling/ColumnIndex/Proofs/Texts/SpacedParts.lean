import ColumnIndex.Proofs.Texts.HexDigits
import Mathlib.Data.List.Basic

/-!
# Texts with blanks between their parts

A text is made of parts that are written in any case, with blanks around them but not within. What
such a text is does not depend on the case of its letters, and blanks may be put to its ends or cut
off them.

## Main definitions

* `Text.SameButCase` — the same letters in any case.
* `Text.IsWord` — visible characters without capitals.
* `Text.Spaced` — the parts that a text is made of.

## Main statements

* `Text.spaced_append` — parts in a row stand in a row.
* `Text.spaced_map_toLower` — the case of the text does not matter.
* `Text.spaced_of_trimChars` — blanks at its ends do not matter.
* `Text.IsWord.spaced_singleton_iff` — what a text that spells a word is without them.
-/
namespace ColumnIndex.Text

variable {before cs ds after : List Char}

/-! ## The case of letters -/

theorem toLower_cases (c : Char) :
    c.toLower = c ∨ (IsVisible c ∧ IsVisible c.toLower ∧ c.toLower.toLower = c.toLower) := by
  by_cases h : c.toNat < 128
  · exact ascii_cases (P := fun c => c.toLower = c ∨
      (IsVisible c ∧ IsVisible c.toLower ∧ c.toLower.toLower = c.toLower)) (by decide) h
  · exact .inl (toLower_of_not_ascii h)

@[simp] theorem toLower_toLower (c : Char) : c.toLower.toLower = c.toLower := by
  rcases toLower_cases c with h | ⟨-, -, h⟩
  · rw [h, h]
  · exact h

@[simp] theorem isBlank_toLower (c : Char) : isBlank c.toLower = isBlank c := by
  rcases toLower_cases c with h | ⟨hc, hlower, -⟩
  · rw [h]
  · rw [hc.not_isBlank, hlower.not_isBlank]

theorem allBlank_map_toLower : AllBlank (cs.map Char.toLower) ↔ AllBlank cs := by
  simp [AllBlank]

theorem trimChars_map_toLower (cs : List Char) :
    trimChars (cs.map Char.toLower) = (trimChars cs).map Char.toLower := by
  have hblank : isBlank ∘ Char.toLower = isBlank := funext isBlank_toLower
  rw [trimChars, trimChars, trimStart, trimStart, trimEnd, trimEnd, List.dropWhile_map, hblank,
    ← List.map_reverse, List.dropWhile_map, hblank, List.map_reverse]

/-- The characters differ at most in the case of Latin letters. -/
def SameButCase (cs ds : List Char) : Prop := cs.map Char.toLower = ds.map Char.toLower

instance (cs ds : List Char) : Decidable (SameButCase cs ds) := inferInstanceAs (Decidable (_ = _))

theorem sameButCase_map_toLower : SameButCase (cs.map Char.toLower) ds ↔ SameButCase cs ds := by
  simp [SameButCase, Function.comp_def]

/-! ## Words -/

/-- Visible characters without capitals. -/
structure IsWord (word : List Char) : Prop where
  ne_nil : word ≠ []
  small : ∀ c ∈ word, IsVisible c ∧ c.toLower = c

namespace IsWord

variable {word : List Char}

theorem map_toLower (h : IsWord word) : word.map Char.toLower = word :=
  (List.map_congr_left fun c hc => (h.small c hc).2).trans word.map_id

theorem exists_head? (h : IsWord word) : ∃ c ∈ word.head?, isBlank c = false :=
  ⟨word.head h.ne_nil, List.head?_eq_some_head h.ne_nil,
    (h.small _ (List.head_mem h.ne_nil)).1.not_isBlank⟩

theorem exists_getLast? (h : IsWord word) : ∃ c ∈ word.getLast?, isBlank c = false :=
  ⟨word.getLast h.ne_nil, List.getLast?_eq_some_getLast h.ne_nil,
    (h.small _ (List.getLast_mem h.ne_nil)).1.not_isBlank⟩

/-- Blanks around a word are cut off. -/
theorem trimChars_between (h : IsWord word) (hbefore : AllBlank before) (hafter : AllBlank after) :
    trimChars (before ++ word ++ after) = word :=
  Text.trimChars_between hbefore hafter h.exists_head? h.exists_getLast?

end IsWord

/-! ## Parts -/

variable {part : List Char} {parts parts' : List (List Char)}

/-- The characters are the parts one after the other, each in any case, with blanks before, between
and behind them. -/
def Spaced : List (List Char) → List Char → Prop
  | [], cs => AllBlank cs
  | part :: parts, cs => ∃ blanks written rest, cs = blanks ++ written ++ rest ∧ AllBlank blanks ∧
      SameButCase written part ∧ Spaced parts rest

/-- The parts themselves, without blanks. -/
theorem spaced_flatten (parts : List (List Char)) : Spaced parts parts.flatten := by
  induction parts with
  | nil => exact allBlank_nil
  | cons part parts ih => exact ⟨[], part, parts.flatten, rfl, allBlank_nil, rfl, ih⟩

theorem Spaced.blanks_append (h : Spaced parts cs) (hbefore : AllBlank before) :
    Spaced parts (before ++ cs) := by
  cases parts with
  | nil => exact allBlank_append.2 ⟨hbefore, h⟩
  | cons part parts =>
    obtain ⟨blanks, written, rest, rfl, hblanks, hwritten, hrest⟩ := h
    exact ⟨before ++ blanks, written, rest, by simp, allBlank_append.2 ⟨hbefore, hblanks⟩, hwritten,
      hrest⟩

/-- Parts that stand in a row are a row of parts. -/
theorem spaced_append :
    Spaced (parts ++ parts') cs ↔ ∃ as bs, cs = as ++ bs ∧ Spaced parts as ∧ Spaced parts' bs := by
  induction parts generalizing cs with
  | nil =>
    constructor
    · intro h
      exact ⟨[], cs, rfl, allBlank_nil, h⟩
    · rintro ⟨as, bs, rfl, has, hbs⟩
      exact hbs.blanks_append has
  | cons part parts ih =>
    constructor
    · rintro ⟨blanks, written, rest, rfl, hblanks, hwritten, hrest⟩
      obtain ⟨as, bs, rfl, has, hbs⟩ := ih.1 hrest
      exact ⟨blanks ++ written ++ as, bs, by simp, ⟨_, _, _, rfl, hblanks, hwritten, has⟩, hbs⟩
    · rintro ⟨-, bs, rfl, ⟨blanks, written, rest, rfl, hblanks, hwritten, hrest⟩, hbs⟩
      exact ⟨blanks, written, rest ++ bs, by simp, hblanks, hwritten, ih.2 ⟨_, _, rfl, hrest, hbs⟩⟩

theorem Spaced.append_blanks (h : Spaced parts cs) (hafter : AllBlank after) :
    Spaced parts (cs ++ after) := by
  rw [← List.append_nil parts]
  exact spaced_append.2 ⟨cs, after, rfl, h, hafter⟩

theorem spaced_singleton :
    Spaced [part] cs ↔ ∃ before written after, cs = before ++ written ++ after ∧
      AllBlank before ∧ AllBlank after ∧ SameButCase written part := by
  simp only [Spaced]
  grind

/-- The case of the letters does not matter. -/
theorem spaced_map_toLower : Spaced parts (cs.map Char.toLower) ↔ Spaced parts cs := by
  induction parts generalizing cs with
  | nil => exact allBlank_map_toLower
  | cons part parts ih =>
    constructor
    · rintro ⟨blanks, written, rest, hcs, hblanks, hwritten, hrest⟩
      obtain ⟨front, rest, rfl, hfront, rfl⟩ := List.map_eq_append_iff.1 hcs
      obtain ⟨blanks, written, rfl, rfl, rfl⟩ := List.map_eq_append_iff.1 hfront
      exact ⟨blanks, written, rest, rfl, allBlank_map_toLower.1 hblanks,
        sameButCase_map_toLower.1 hwritten, ih.1 hrest⟩
    · rintro ⟨blanks, written, rest, rfl, hblanks, hwritten, hrest⟩
      exact ⟨blanks.map Char.toLower, written.map Char.toLower, rest.map Char.toLower, by simp,
        allBlank_map_toLower.2 hblanks, sameButCase_map_toLower.2 hwritten, ih.2 hrest⟩

/-- Nor do the blanks at the ends. -/
theorem spaced_of_trimChars (h : Spaced parts (trimChars cs)) : Spaced parts cs := by
  obtain ⟨before, after, hbefore, hafter, hcs⟩ := exists_trimChars_surrounded cs
  rw [hcs]
  exact (h.blanks_append hbefore).append_blanks hafter

/-! ## Words in a row -/

namespace IsWord

variable {word word' : List Char}

/-- A text spells a word alone if the word is all that is left of it in small letters and without
the blanks at its ends. -/
theorem spaced_singleton_iff (h : IsWord word) :
    Spaced [word] cs ↔ (trimChars cs).map Char.toLower = word := by
  rw [← trimChars_map_toLower]
  constructor
  · intro hcs
    obtain ⟨before, written, after, rfl, hbefore, hafter, hwritten⟩ := spaced_singleton.1 hcs
    rw [SameButCase, h.map_toLower] at hwritten
    rw [List.map_append, List.map_append, hwritten]
    exact h.trimChars_between (allBlank_map_toLower.2 hbefore) (allBlank_map_toLower.2 hafter)
  · intro hcs
    rw [trimChars_map_toLower] at hcs
    apply spaced_of_trimChars
    rw [← spaced_map_toLower, hcs]
    exact spaced_singleton.2 ⟨[], word, [], by simp, allBlank_nil, allBlank_nil, rfl⟩

/-- Of a text that spells two words, these are left with blanks between them. -/
theorem exists_of_spaced_pair (h : IsWord word) (h' : IsWord word')
    (hcs : Spaced [word, word'] cs) :
    ∃ blanks, AllBlank blanks ∧ (trimChars cs).map Char.toLower = word ++ blanks ++ word' := by
  obtain ⟨before, written, rest, rfl, hbefore, hwritten, hrest⟩ := hcs
  obtain ⟨between, written', after, rfl, hbetween, hafter, hwritten'⟩ := spaced_singleton.1 hrest
  rw [SameButCase, h.map_toLower] at hwritten
  rw [SameButCase, h'.map_toLower] at hwritten'
  refine ⟨between.map Char.toLower, allBlank_map_toLower.2 hbetween, ?_⟩
  have hmap : (before ++ written ++ (between ++ written' ++ after)).map Char.toLower =
      before.map Char.toLower ++ (word ++ between.map Char.toLower ++ word') ++
        after.map Char.toLower := by
    simp [hwritten, hwritten']
  obtain ⟨first, hfirst, hvisible⟩ := h.exists_head?
  obtain ⟨last, hlast, hvisible'⟩ := h'.exists_getLast?
  rw [← trimChars_map_toLower, hmap]
  apply Text.trimChars_between (allBlank_map_toLower.2 hbefore) (allBlank_map_toLower.2 hafter)
  · refine ⟨first, ?_, hvisible⟩
    rw [List.append_assoc, List.head?_append_of_ne_nil _ h.ne_nil]
    exact hfirst
  · refine ⟨last, ?_, hvisible'⟩
    rw [List.getLast?_append_of_ne_nil _ h'.ne_nil]
    exact hlast

end IsWord

end ColumnIndex.Text
