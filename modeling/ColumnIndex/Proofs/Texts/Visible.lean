import ColumnIndex.Proofs.Digits
import ColumnIndex.Text.Blank
import ColumnIndex.Text.Hex

/-!
# Texts of visible characters

Canonical texts of numbers and names are made of visible ASCII characters. There is no blank among
them, so nothing is cut off when such a text is read.

## Main definitions

* `Text.IsVisible` — the visible characters of ASCII.
* `Text.AllBlank` — nothing but blanks.

## Main statements

* `Text.trimChars_between` — blanks at the ends of a text are cut off.
* `Text.trimChars_of_visible` — a text of visible characters has none.
-/
namespace ColumnIndex.Text

variable {c : Char} {before cs ds after : List Char}

/-- The visible characters of ASCII. -/
def IsVisible (c : Char) : Prop := 32 < c.toNat ∧ c.toNat < 127

instance (c : Char) : Decidable (IsVisible c) := inferInstanceAs (Decidable (_ ∧ _))

theorem IsVisible.not_isBlank (h : IsVisible c) : isBlank c = false := by
  obtain ⟨hlow, hhigh⟩ := h
  rw [Bool.eq_false_iff]
  intro hblank
  obtain ⟨range, hrange, hc⟩ := Ranges.has_iff.1 hblank
  simp only [blankRanges, List.mem_cons, List.not_mem_nil, or_false] at hrange
  rcases hrange with rfl | rfl | rfl | rfl | rfl | rfl | rfl | rfl | rfl | rfl <;> omega

/-- What holds of all codes of ASCII holds of its characters. -/
theorem ascii_cases {P : Char → Prop} (every : ∀ i : Fin 128, P (Char.ofNat i))
    (h : c.toNat < 128) : P c := by
  have hc := every ⟨c.toNat, h⟩
  rwa [Char.ofNat_toNat] at hc

/-! ## Blanks at the ends -/

/-- Characters that are not blank at either end are all kept. -/
theorem trimChars_eq_self (hfirst : ∀ c ∈ cs.head?, isBlank c = false)
    (hlast : ∀ c ∈ cs.getLast?, isBlank c = false) : trimChars cs = cs := by
  have hstart : trimStart cs = cs := by
    cases cs with
    | nil => rfl
    | cons c cs => simp [trimStart, hfirst c rfl]
  rw [trimChars, hstart, trimEnd]
  cases hcs : cs.reverse with
  | nil => simpa using hcs.symm
  | cons c rest =>
    have hc : isBlank c = false := by
      refine hlast c ?_
      rw [List.getLast?_eq_head?_reverse, hcs]
      rfl
    rw [List.dropWhile_cons_of_neg (by simp [hc]), ← hcs, List.reverse_reverse]

/-- There are none but blanks. -/
def AllBlank (cs : List Char) : Prop := ∀ c ∈ cs, isBlank c

instance (cs : List Char) : Decidable (AllBlank cs) := List.decidableBAll (fun c => isBlank c) cs

theorem allBlank_nil : AllBlank [] := fun _ h => absurd h List.not_mem_nil

theorem allBlank_append : AllBlank (cs ++ ds) ↔ AllBlank cs ∧ AllBlank ds := List.forall_mem_append

theorem allBlank_reverse : AllBlank cs.reverse ↔ AllBlank cs := by simp [AllBlank]

theorem allBlank_takeWhile (cs : List Char) : AllBlank (cs.takeWhile isBlank) :=
  List.all_eq_true.1 List.all_takeWhile

/-- What is cut off the two ends is blank. -/
theorem exists_trimChars_surrounded (cs : List Char) :
    ∃ before after, AllBlank before ∧ AllBlank after ∧ cs = before ++ trimChars cs ++ after := by
  have hend : trimStart cs = trimEnd (trimStart cs)
      ++ ((trimStart cs).reverse.takeWhile isBlank).reverse := by
    rw [trimEnd, ← List.reverse_append, List.takeWhile_append_dropWhile, List.reverse_reverse]
  refine ⟨cs.takeWhile isBlank, ((trimStart cs).reverse.takeWhile isBlank).reverse,
    allBlank_takeWhile _, allBlank_reverse.2 (allBlank_takeWhile _), ?_⟩
  rw [trimChars, List.append_assoc, ← hend, trimStart, List.takeWhile_append_dropWhile]

/-- Blanks around characters that are not blank at either end are cut off. -/
theorem trimChars_between (hbefore : AllBlank before) (hafter : AllBlank after)
    (hfirst : ∃ c ∈ cs.head?, isBlank c = false) (hlast : ∃ c ∈ cs.getLast?, isBlank c = false) :
    trimChars (before ++ cs ++ after) = cs := by
  obtain ⟨first, hfirst, hfirst'⟩ := hfirst
  obtain ⟨last, hlast, hlast'⟩ := hlast
  obtain ⟨rest, rfl⟩ := List.head?_eq_some_iff.1 hfirst
  obtain ⟨rest', hrest⟩ := List.getLast?_eq_some_iff.1 hlast
  have hreverse : (first :: rest).reverse = last :: rest'.reverse := by
    rw [hrest, List.reverse_append]
    rfl
  rw [trimChars, trimStart, List.append_assoc, List.dropWhile_append_of_pos hbefore,
    List.cons_append, List.dropWhile_cons_of_neg (by simp [hfirst']), ← List.cons_append, trimEnd,
    List.reverse_append, List.dropWhile_append_of_pos (allBlank_reverse.2 hafter), hreverse,
    List.dropWhile_cons_of_neg (by simp [hlast']), ← hreverse, List.reverse_reverse]

/-- Nothing is cut off a text of visible characters. -/
theorem trimChars_of_visible (h : ∀ c ∈ cs, IsVisible c) : trimChars cs = cs := by
  apply trimChars_eq_self
  · intro c hc
    exact (h c (List.mem_of_mem_head? hc)).not_isBlank
  · intro c hc
    exact (h c (List.mem_of_mem_getLast? hc)).not_isBlank

/-! ## Digits -/

theorem isVisible_of_isDigit (h : isDigit c) : IsVisible c := by
  simp only [isDigit, Bool.and_eq_true, decide_eq_true_eq, Char.le_def, UInt32.le_iff_toNat_le] at h
  obtain ⟨hlow, hhigh⟩ := h
  have hlow : 48 ≤ c.toNat := hlow
  have hhigh : c.toNat ≤ 57 := hhigh
  exact ⟨by omega, by omega⟩

theorem isVisible_of_mem_toDigits {b n : Nat} (hb : 1 < b) (hb' : b ≤ 16)
    (h : c ∈ Nat.toDigits b n) : IsVisible c := by
  obtain ⟨d, hd, rfl⟩ := exists_digitChar_of_mem hb h
  have every : ∀ d < 16, IsVisible (Nat.digitChar d) := by decide
  exact every d (by omega)

/-- The digits of bytes are those of numbers below sixteen. -/
theorem exists_hexDigit_of_mem {bytes : List UInt8} {c : Char} (h : c ∈ hexOfBytes bytes) :
    ∃ n < 16, c = hexDigit n := by
  induction bytes with
  | nil => cases h
  | cons b bytes ih =>
    have hb : b.toNat < 256 := b.toNat_lt
    simp only [hexOfBytes, List.mem_cons] at h
    rcases h with rfl | rfl | h
    · exact ⟨b.toNat / 16, by omega, rfl⟩
    · exact ⟨b.toNat % 16, by omega, rfl⟩
    · exact ih h

theorem length_hexOfBytes (bytes : List UInt8) :
    (hexOfBytes bytes).length = 2 * bytes.length := by
  induction bytes with
  | nil => rfl
  | cons b bytes ih => simp [hexOfBytes, ih]; omega

theorem isVisible_of_mem_hexOfBytes {bytes : List UInt8} (h : c ∈ hexOfBytes bytes) :
    IsVisible c := by
  obtain ⟨n, hn, rfl⟩ := exists_hexDigit_of_mem h
  have every : ∀ n < 16, IsVisible (hexDigit n) := by decide
  exact every n hn

end ColumnIndex.Text
