import ColumnIndex.Proofs.Texts.Visible
import ColumnIndex.Text.Letter
import ColumnIndex.Text.Lowercase
import ColumnIndex.Text.Runs

/-!
# Words of a text

The runs of characters with a property are what is left of the pieces between the other characters
when the empty pieces are dropped. Runs do not reach across a character without the property, so a
text may be cut there first: its runs are the runs of its parts, one part after the other. Blanks
are neither letters nor numbers, and so runs of these may be taken word by word.

## Main definitions

* `Text.words` — the parts of a text between its blanks.

## Main statements

* `Text.runs_eq_filter_splitOnP` — runs as pieces of a list that was split.
* `Text.runs_append_cuts` — characters without the property separate runs.
* `Text.runs_eq_flatMap_runs` — runs may be taken within longer runs.
-/
namespace ColumnIndex.Text

variable {keep wide : Char → Bool} {c : Char} {cs run : List Char}

/-! ## Runs and pieces -/

theorem runsFrom_eq_filter (keep : Char → Bool) (current cs : List Char) :
    runsFrom keep current cs =
      (List.splitOnPPrepend (!keep ·) cs current).filter (!·.isEmpty) := by
  induction cs generalizing current with
  | nil => cases current <;> simp [runsFrom, closeRun]
  | cons c cs ih =>
    rw [runsFrom, List.splitOnPPrepend_cons_eq_if]
    by_cases hc : keep c
    · simp [hc, ih]
    · cases current <;> simp [hc, ih, closeRun]

/-- The runs are the pieces between the other characters, but for the empty pieces. -/
theorem runs_eq_filter_splitOnP (keep : Char → Bool) (cs : List Char) :
    runs keep cs = (cs.splitOnP (!keep ·)).filter (!·.isEmpty) :=
  runsFrom_eq_filter keep [] cs

theorem ne_nil_of_mem_runs (h : run ∈ runs keep cs) : run ≠ [] := by
  rw [runs_eq_filter_splitOnP, List.mem_filter] at h
  simpa using h.2

@[simp] theorem runs_nil (keep : Char → Bool) : runs keep [] = [] := rfl

/-- Characters without the property in front of a text belong to no run. -/
theorem runs_cuts_append {cuts : List Char} (hcuts : ∀ c ∈ cuts, keep c = false) (cs : List Char) :
    runs keep (cuts ++ cs) = runs keep cs := by
  induction cuts with
  | nil => rfl
  | cons c cuts ih =>
    rw [List.forall_mem_cons] at hcuts
    have hcut := runs_append_cut hcuts.1 [] (cuts ++ cs)
    rw [List.cons_append, ← ih hcuts.2]
    simpa using hcut

/-- Characters without the property separate the runs before them from those after them. -/
theorem runs_append_cuts {cuts : List Char} (hne : cuts ≠ [])
    (hcuts : ∀ c ∈ cuts, keep c = false) (cs ds : List Char) :
    runs keep (cs ++ cuts ++ ds) = runs keep cs ++ runs keep ds := by
  obtain ⟨c, rest, rfl⟩ := List.exists_cons_of_ne_nil hne
  rw [List.forall_mem_cons] at hcuts
  rw [List.append_assoc, List.cons_append, runs_append_cut hcuts.1, runs_cuts_append hcuts.2]

/-! ## Runs within runs -/

/-- A run that is still read is a part of the text like those that are finished. -/
theorem flatMap_runsFrom (hwide : ∀ c, keep c → wide c) (current cs : List Char) :
    (runsFrom wide current cs).flatMap (runs keep) = runs keep (current.reverse ++ cs) := by
  induction cs generalizing current with
  | nil => cases current <;> simp [runsFrom, closeRun]
  | cons c cs ih =>
    rw [runsFrom]
    by_cases hc : wide c
    · rw [if_pos hc, ih, List.reverse_cons, List.append_assoc, List.singleton_append]
    · have hcut : keep c = false := by
        rw [Bool.eq_false_iff]
        exact fun h => hc (hwide c h)
      have hclosed : (closeRun current).flatMap (runs keep) = runs keep current.reverse := by
        cases current <;> simp [closeRun]
      rw [if_neg hc, List.flatMap_append, hclosed, ih, runs_append_cut hcut]
      rfl

/-- The runs for a property are found within the runs for a wider one. -/
theorem runs_eq_flatMap_runs (hwide : ∀ c, keep c → wide c) (cs : List Char) :
    runs keep cs = (runs wide cs).flatMap (runs keep) :=
  (flatMap_runsFrom hwide [] cs).symm

/-! ## Words -/

/-- The parts of a text between its blanks, in order. -/
def words (text : String) : List String :=
  ((text.toList.splitOnP isBlank).filter (!·.isEmpty)).map String.ofList

theorem words_eq_map_runs (text : String) :
    words text = (runs (!isBlank ·) text.toList).map String.ofList := by
  simp only [words, runs_eq_filter_splitOnP, Bool.not_not]

/-- The code points of the blanks. -/
def blankCodes : List Nat :=
  blankRanges.flatMap fun range => List.range' range.1 (range.2 + 1 - range.1)

/-- What holds of all code points of blanks holds of the blanks. -/
theorem blank_cases {P : Char → Prop} (every : ∀ n ∈ blankCodes, P (Char.ofNat n))
    (h : isBlank c) : P c := by
  obtain ⟨range, hrange, hlow, hhigh⟩ := Ranges.has_iff.1 h
  have hcode : c.toNat ∈ blankCodes :=
    List.mem_flatMap.2 ⟨range, hrange, List.mem_range'_1.2 ⟨hlow, by omega⟩⟩
  have hc := every c.toNat hcode
  rwa [Char.ofNat_toNat] at hc

/-- A blank is neither a letter nor a number. -/
theorem not_isAlphanumeric_of_isBlank (h : isBlank c) : isAlphanumeric c = false :=
  blank_cases (P := fun c => isAlphanumeric c = false) (by decide +kernel) h

/-- A blank is no letter. -/
theorem not_isAlphabetic_of_isBlank (h : isBlank c) : isAlphabetic c = false :=
  (Bool.or_eq_false_iff.1 (not_isAlphanumeric_of_isBlank h)).1

/-! ## Lower case -/

/-- Something is left of each character in lower case. -/
theorem lowercaseChars_ne_nil (h : cs ≠ []) : lowercaseChars cs ≠ [] := by
  obtain ⟨c, rest, rfl⟩ := List.exists_cons_of_ne_nil h
  have hform : lowerForm c ≠ [] := by
    unfold lowerForm
    split <;> simp
  rw [lowercaseChars, lowercaseFrom]
  split <;> simp [hform]

end ColumnIndex.Text
