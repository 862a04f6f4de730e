import ColumnIndex.Text.Digits
import Mathlib.Data.List.Induction
import Mathlib.Tactic.Ring

/-!
# Digits of whole numbers

The digits of a number are digits, there is at least one, and they spell the number. Only zero
starts with a zero. Digits of any base spell their number too.
-/
namespace ColumnIndex.Text

theorem isDigit_of_mem_digitsOf {n : Nat} {c : Char} (h : c ∈ digitsOf n) : isDigit c := by
  have hc := Nat.isDigit_of_mem_toDigits (by decide) (by decide) h
  simpa [isDigit, Char.isDigit, Char.le_def, UInt32.le_iff_toNat_le] using hc

/-- A digit is no sign. -/
theorem ne_sign_of_isDigit {c : Char} (h : isDigit c) : c ≠ '-' ∧ c ≠ '+' := by
  constructor
  · rintro rfl
    exact absurd h (by decide)
  · rintro rfl
    exact absurd h (by decide)

theorem digitsOf_ne_nil (n : Nat) : digitsOf n ≠ [] := Nat.toDigits_ne_nil

/-- The digits of a number spell it. -/
@[simp] theorem numberOf_digitsOf (n : Nat) : numberOf (digitsOf n) = n :=
  Nat.ofDigitChars_ten_toDigits

/-- A number that is not zero does not start with a zero. -/
theorem head?_digitsOf_ne {n : Nat} (hn : n ≠ 0) : (digitsOf n).head? ≠ some '0' := by
  induction n using Nat.strongRecOn with
  | ind n ih =>
    rw [digitsOf, Nat.toDigits_eq_if (by decide)]
    split
    · rename_i hlt
      have every : ∀ i : Fin 10, i.val ≠ 0 → Nat.digitChar i ≠ '0' := by decide
      simpa using every ⟨n, hlt⟩ hn
    · obtain ⟨c, cs, hcs⟩ := List.exists_cons_of_ne_nil (digitsOf_ne_nil (n / 10))
      have hc := ih (n / 10) (by omega) (by omega)
      rw [digitsOf] at hcs hc
      rw [hcs] at hc ⊢
      simpa using hc

/-! ## Digits side by side -/

section Joined

variable {width n : Nat} {c : Char}

/-- Digits behind other digits push them to the left. -/
theorem numberOf_append (cs ds : List Char) :
    numberOf (cs ++ ds) = numberOf cs * 10 ^ ds.length + numberOf ds := by
  induction ds using List.reverseRecOn with
  | nil => simp
  | append_singleton ds d ih =>
    have hlast : ∀ es : List Char, numberOf (es ++ [d]) = 10 * numberOf es + digitValue d := by
      intro es
      rw [numberOf, List.foldl_append]
      rfl
    rw [← List.append_assoc, hlast, hlast, ih, List.length_append, List.length_singleton,
      Nat.pow_succ]
    ring

theorem numberOf_replicate_zero (k : Nat) : numberOf (List.replicate k '0') = 0 := by
  induction k with
  | zero => rfl
  | succ k ih =>
    rw [List.replicate_succ, numberOf, List.foldl_cons]
    exact ih

theorem isDigit_of_mem_paddedDigits (h : c ∈ paddedDigits width n) : isDigit c := by
  rcases List.mem_append.1 h with h | h
  · rw [List.eq_of_mem_replicate h]
    rfl
  · exact isDigit_of_mem_digitsOf h

/-- A number that fits its width fills it. -/
theorem length_paddedDigits (hwidth : 0 < width) (h : n < 10 ^ width) :
    (paddedDigits width n).length = width := by
  have hlength : (digitsOf n).length ≤ width :=
    (Nat.length_toDigits_le_iff (by decide) hwidth).2 h
  rw [paddedDigits, padLeft, List.length_append, List.length_replicate]
  omega

/-- Zeros in front do not change the number. -/
theorem numberOf_paddedDigits (width n : Nat) : numberOf (paddedDigits width n) = n := by
  rw [paddedDigits, padLeft, numberOf_append, numberOf_replicate_zero, Nat.zero_mul, Nat.zero_add,
    numberOf_digitsOf]

end Joined

/-! ## Any base -/

/-- A digit in any base is the one of a number below the base. -/
theorem exists_digitChar_of_mem {b n : Nat} (hb : 1 < b) {c : Char} (h : c ∈ Nat.toDigits b n) :
    ∃ d < b, c = Nat.digitChar d := by
  induction n using Nat.strongRecOn with
  | ind n ih =>
    rw [Nat.toDigits_eq_if hb] at h
    split at h
    · rename_i hn
      exact ⟨n, hn, List.mem_singleton.1 h⟩
    · rename_i hn
      rcases List.mem_append.1 h with h | h
      · exact ih (n / b) (Nat.div_lt_self (by omega) hb) h
      · exact ⟨n % b, Nat.mod_lt _ (by omega), List.mem_singleton.1 h⟩

/-- The digits of a number spell it in any base, by whatever function knows their values. -/
theorem foldl_toDigits {b : Nat} (hb : 1 < b) {value : Char → Nat}
    (hvalue : ∀ d < b, value (Nat.digitChar d) = d) (n : Nat) :
    (Nat.toDigits b n).foldl (fun m c => b * m + value c) 0 = n := by
  induction n using Nat.strongRecOn with
  | ind n ih =>
    rw [Nat.toDigits_eq_if hb]
    split
    · rename_i hn
      simp [hvalue n hn]
    · rename_i hn
      have hd : n % b < b := Nat.mod_lt _ (by omega)
      rw [List.foldl_append, ih (n / b) (Nat.div_lt_self (by omega) hb)]
      simp [hvalue _ hd, Nat.div_add_mod]

end ColumnIndex.Text
