import ColumnIndex.Text.Lowercase
import Mathlib.Data.List.TakeWhile

/-!
# Lower case of the start of a text

Each character has its own form in lower case, save the capital sigma, which looks at its
neighbours: at the end of a word it has another form. So the lower case of the start of a text is
the start of its lower case, unless the text is cut within a word behind a sigma. That sigma ends
the word of the start, and not the word of the text.

## Main definitions

* `Text.CutsWordAtSigma` — the text is cut within a word, and a sigma ends the word of its start.

Main statement: `Text.lowercaseChars_prefix_iff`.
-/
namespace ColumnIndex.Text

variable {c : Char} {cs rest : List Char}

/-! ## The first character that case does not ignore -/

/-- Whether case ignores all characters. -/
def AllIgnored (cs : List Char) : Prop := ∀ c ∈ cs, caseIgnorableRanges.has c

instance (cs : List Char) : Decidable (AllIgnored cs) := inferInstanceAs (Decidable (∀ c ∈ cs, _))

theorem leadsWithCased_of_allIgnored (h : AllIgnored cs) : leadsWithCased cs = false := by
  rw [leadsWithCased, List.dropWhile_eq_nil_iff.2 h]

theorem leadsWithCased_append_of_allIgnored (h : AllIgnored cs) :
    leadsWithCased (cs ++ rest) = leadsWithCased rest := by
  rw [leadsWithCased, List.dropWhile_append_of_pos h, leadsWithCased]

theorem leadsWithCased_append_of_not_allIgnored (h : ¬AllIgnored cs) :
    leadsWithCased (cs ++ rest) = leadsWithCased cs := by
  rw [leadsWithCased, leadsWithCased, List.dropWhile_append]
  cases hdrop : cs.dropWhile caseIgnorableRanges.has with
  | nil => exact absurd (List.dropWhile_eq_nil_iff.1 hdrop) h
  | cons d ds => rfl

/-- What follows the characters turns a final sigma before them into another one exactly if it
continues the word. -/
theorem isFinalSigma_append_iff {before : List Char} :
    isFinalSigma before cs = isFinalSigma before (cs ++ rest) ↔
      ¬(leadsWithCased before ∧ AllIgnored cs ∧ leadsWithCased rest) := by
  unfold isFinalSigma
  by_cases hignored : AllIgnored cs
  · rw [leadsWithCased_of_allIgnored hignored, leadsWithCased_append_of_allIgnored hignored]
    cases leadsWithCased before <;> cases leadsWithCased rest <;> simp [hignored]
  · simp [leadsWithCased_append_of_not_allIgnored hignored, hignored]

/-! ## Character by character -/

/-- The lower case of a character between others, those before it being given in reverse. -/
def lowerAt (before : List Char) (c : Char) (after : List Char) : List Char :=
  if c = 'Σ' then [if isFinalSigma before after then 'ς' else 'σ'] else lowerForm c

theorem lowercaseFrom_cons (before : List Char) (c : Char) (cs : List Char) :
    lowercaseFrom before (c :: cs) = lowerAt before c cs ++ lowercaseFrom (c :: before) cs := rfl

/-- The length of the form does not depend on the neighbours. -/
theorem length_lowerAt (before after after' : List Char) :
    (lowerAt before c after).length = (lowerAt before c after').length := by
  unfold lowerAt
  split
  · rfl
  · rfl

theorem lowerAt_eq_iff {before after after' : List Char} :
    lowerAt before c after = lowerAt before c after' ↔
      (c = 'Σ' → isFinalSigma before after = isFinalSigma before after') := by
  unfold lowerAt
  by_cases hc : c = 'Σ'
  · simp only [hc, if_true, List.cons.injEq, and_true, true_imp_iff]
    cases isFinalSigma before after <;> cases isFinalSigma before after' <;> decide
  · simp [hc]

/-! ## The start of a text -/

/-- The characters end with a sigma after a letter, apart from what case ignores, and the rest goes
on with a letter. What stands before the characters is given in reverse. -/
def CutsFrom (before cs rest : List Char) : Prop :=
  ∃ start ignored, cs = start ++ 'Σ' :: ignored ∧ leadsWithCased (start.reverse ++ before) ∧
    AllIgnored ignored ∧ leadsWithCased rest

/-- The sigma is the first character or a later one. -/
theorem cutsFrom_cons {before : List Char} :
    CutsFrom before (c :: cs) rest ↔
      (c = 'Σ' ∧ leadsWithCased before ∧ AllIgnored cs ∧ leadsWithCased rest) ∨
        CutsFrom (c :: before) cs rest := by
  constructor
  · rintro ⟨start, ignored, hcs, hbefore, hignored, hrest⟩
    cases start with
    | nil =>
      obtain ⟨rfl, rfl⟩ := List.cons.inj hcs
      exact .inl ⟨rfl, hbefore, hignored, hrest⟩
    | cons d start =>
      obtain ⟨rfl, rfl⟩ := List.cons.inj hcs
      refine .inr ⟨start, ignored, rfl, ?_, hignored, hrest⟩
      simpa using hbefore
  · rintro (⟨rfl, hbefore, hignored, hrest⟩ | ⟨start, ignored, rfl, hbefore, hignored, hrest⟩)
    · exact ⟨[], cs, rfl, hbefore, hignored, hrest⟩
    · refine ⟨c :: start, ignored, rfl, ?_, hignored, hrest⟩
      simpa using hbefore

theorem lowercaseFrom_prefix_iff (before cs rest : List Char) :
    lowercaseFrom before cs <+: lowercaseFrom before (cs ++ rest) ↔ ¬CutsFrom before cs rest := by
  induction cs generalizing before with
  | nil => simp [CutsFrom]
  | cons c cs ih =>
    rw [List.cons_append, lowercaseFrom_cons, lowercaseFrom_cons,
      List.prefix_append_inj_of_length_eq (length_lowerAt _ _ _), lowerAt_eq_iff,
      isFinalSigma_append_iff, ih, cutsFrom_cons, not_or]
    exact and_congr_left' not_and.symm

/-- The text is cut within a word, and a sigma ends the word of its start. -/
def CutsWordAtSigma (start rest : List Char) : Prop := CutsFrom [] start rest

/-- The lower case of the start of a text is the start of its lower case exactly if the text is not
cut within a word behind a sigma. -/
theorem lowercaseChars_prefix_iff :
    lowercaseChars cs <+: lowercaseChars (cs ++ rest) ↔ ¬CutsWordAtSigma cs rest :=
  lowercaseFrom_prefix_iff [] cs rest

end ColumnIndex.Text
