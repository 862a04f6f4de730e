import ColumnIndex.Proofs.Texts.Visible
import ColumnIndex.Uuid

/-!
# Identifiers are read back

The canonical text of an identifier is read as that identifier: the hyphens are taken out, and the
digits spell the bytes.

Main statement: `Uuid.parse?_hyphenate`.
-/
namespace ColumnIndex.Uuid

open Text

/-- The parts between the hyphens are the digits. -/
theorem append_parts (digits : List Char) :
    digits.take 8 ++ ((digits.drop 8).take 4 ++ ((digits.drop 12).take 4
      ++ ((digits.drop 16).take 4 ++ digits.drop 20))) = digits := by
  have hdrop : ∀ m : Nat, (digits.drop m).take 4 ++ digits.drop (m + 4) = digits.drop m := by
    intro m
    rw [← List.drop_drop, List.take_append_drop]
  rw [hdrop 16, hdrop 12, hdrop 8, List.take_append_drop]

/-- Hyphens are taken out again. -/
theorem filter_hyphenate {digits : List Char} (h : '-' ∉ digits) :
    (hyphenate digits).filter (· ≠ '-') = digits := by
  have hparts : (hyphenate digits).filter (· ≠ '-')
      = (digits.take 8 ++ ((digits.drop 8).take 4 ++ ((digits.drop 12).take 4
        ++ ((digits.drop 16).take 4 ++ digits.drop 20)))).filter (· ≠ '-') := by
    simp [hyphenate]
  rw [hparts, append_parts, List.filter_eq_self]
  intro c hc
  have hne : c ≠ '-' := fun hc' => h (hc' ▸ hc)
  simpa using hne

theorem length_hyphenate {digits : List Char} (h : digits.length = 32) :
    (hyphenate digits).length = 36 := by
  simp [hyphenate, h]

/-- The digits of an identifier. -/
theorem not_mem_digits (u : Uuid) : '-' ∉ hexOfBytes u.bytes := by
  intro h
  obtain ⟨n, hn, hc⟩ := exists_hexDigit_of_mem h
  have every : ∀ n < 16, '-' ≠ hexDigit n := by decide
  exact every n hn hc

/-- An identifier is read back from its text. -/
theorem parse?_hyphenate (u : Uuid) : parse? (hyphenate (hexOfBytes u.bytes)) = some u := by
  have hdigits : (hexOfBytes u.bytes).length = 32 := by rw [length_hexOfBytes, u.length_eq]
  have hlength := length_hyphenate hdigits
  rw [parse?, if_neg (by omega), if_pos hlength, ofHyphenated?]
  simp only [filter_hyphenate u.not_mem_digits]
  rw [if_pos ⟨hdigits, trivial⟩, ofDigits?, bytesOfHex?_hexOfBytes, Option.bind_some, ofBytes?,
    dif_pos u.length_eq]

theorem isVisible_of_mem_hyphenate {u : Uuid} {c : Char}
    (h : c ∈ hyphenate (hexOfBytes u.bytes)) : IsVisible c := by
  by_cases hc : c = '-'
  · subst hc
    decide
  · have hdigit : c ∈ (hyphenate (hexOfBytes u.bytes)).filter (· ≠ '-') :=
      List.mem_filter.2 ⟨h, by simpa using hc⟩
    rw [filter_hyphenate u.not_mem_digits] at hdigit
    exact isVisible_of_mem_hexOfBytes hdigit

end ColumnIndex.Uuid
