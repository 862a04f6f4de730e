import ColumnIndex.Proofs.ConditionDrafts
import ColumnIndex.Proofs.Number.FloatTexts
import ColumnIndex.Proofs.Texts.SpacedParts
import ColumnIndex.Proofs.Texts.Words

/-!
# Distances are read back from their texts

The text of a number has no letters, so the first letter of a distance is the first one of its unit,
and the two are told apart by it. A distance is read back however its unit is named and wherever
there are blanks, and nothing but a finite number that is not below zero is ever read.

## Main definitions

* `Distance.IsSpelledBy` — the texts that spell a distance.

Main statement: `Distance.reads_spelled`.
-/
namespace ColumnIndex

open Text

/-! ## Characters of numbers -/

namespace Text

variable {c : Char}

/-- What holds of all digits among the codes of ASCII holds of the digits. -/
theorem digit_cases {P : Char → Prop}
    (every : ∀ i : Fin 128, isDigit (Char.ofNat i) → P (Char.ofNat i)) (h : isDigit c) : P c := by
  have hascii := (isVisible_of_isDigit h).2
  exact ascii_cases (P := fun c => isDigit c → P c) every (by omega) h

theorem toLower_of_isDigit (h : isDigit c) : c.toLower = c :=
  digit_cases (P := fun c => c.toLower = c) (by decide) h

theorem not_isAlpha_of_isDigit (h : isDigit c) : c.isAlpha = false :=
  digit_cases (P := fun c => c.isAlpha = false) (by decide) h

theorem not_isAlpha_of_isBlank (h : isBlank c) : c.isAlpha = false :=
  blank_cases (P := fun c => c.isAlpha = false) (by decide) h

end Text

theorem Scientific.isDigit_or_of_mem_positionalDigits {s : Scientific} {c : Char}
    (h : c ∈ FloatLayout.plain.positionalDigits s) : isDigit c ∨ c = '.' := by
  have hdigits : ∀ c ∈ s.digits, isDigit c := fun _ => isDigit_of_mem_digits
  have hzeros : ∀ n, ∀ c ∈ List.replicate n '0', isDigit c := by
    intro n c hc
    rw [List.eq_of_mem_replicate hc]
    rfl
  have hkeeps : FloatLayout.plain.keepsPoint = false := rfl
  simp only [FloatLayout.positionalDigits, hkeeps] at h
  split at h
  · rcases List.mem_append.1 h with h | h
    · rcases List.mem_cons.1 h with rfl | h
      · exact .inl rfl
      · rcases List.mem_cons.1 h with rfl | h
        · exact .inr rfl
        · exact .inl (hzeros _ c h)
    · exact .inl (hdigits c h)
  · split at h
    · rcases List.mem_append.1 h with h | h
      · exact .inl (hdigits c (List.mem_of_mem_take h))
      · rcases List.mem_cons.1 h with rfl | h
        · exact .inr rfl
        · exact .inl (hdigits c (List.mem_of_mem_drop h))
    · simp only [Bool.false_eq_true, if_false, List.append_nil] at h
      rcases List.mem_append.1 h with h | h
      · exact .inl (hdigits c h)
      · exact .inl (hzeros _ c h)

namespace BinaryFloat

variable {F : FloatFormat} {x : BinaryFloat F}

/-- A finite number is written with digits, a point and a sign. -/
theorem isDigit_or_of_mem_chars (hx : x.isFinite) {c : Char} (h : c ∈ x.chars .plain) :
    isDigit c ∨ c = '.' ∨ c = '-' := by
  have hkeeps : FloatLayout.plain.keepsPoint = false := rfl
  have hsign : ∀ c ∈ (if x.negative then ['-'] else []), c = '-' := by
    intro c hc
    split at hc
    · exact List.mem_singleton.1 hc
    · cases hc
  have hdigits : ∀ s : Scientific,
      FloatLayout.plain.digits s = FloatLayout.plain.positionalDigits s :=
    fun _ => rfl
  simp only [chars, not_isNaN_of_isFinite hx, not_isInfinite_of_isFinite hx, hkeeps,
    Bool.false_eq_true, if_false] at h
  split at h
  · rcases List.mem_append.1 h with h | h
    · exact .inr (.inr (hsign c h))
    · exact .inl (List.mem_singleton.1 h ▸ rfl)
  · rcases List.mem_append.1 h with h | h
    · exact .inr (.inr (hsign c h))
    · rw [hdigits] at h
      exact (Scientific.isDigit_or_of_mem_positionalDigits h).imp_right .inl

/-- There are no letters and no blanks among the characters of a number. -/
theorem isWord_chars (hx : x.isFinite) : IsWord (x.chars .plain) where
  ne_nil := by
    obtain ⟨cs, hcs, hread⟩ := exists_chars_eq hx
    obtain ⟨c, rest, rfl, -⟩ := hread.first
    rw [hcs]
    split <;> simp
  small c hc := by
    rcases isDigit_or_of_mem_chars hx hc with hdigit | rfl | rfl
    · exact ⟨isVisible_of_isDigit hdigit, toLower_of_isDigit hdigit⟩
    · exact ⟨by decide, rfl⟩
    · exact ⟨by decide, rfl⟩

theorem not_isAlpha_of_mem_chars (hx : x.isFinite) {c : Char} (hc : c ∈ x.chars .plain) :
    c.isAlpha = false := by
  rcases isDigit_or_of_mem_chars hx hc with hdigit | rfl | rfl
  · exact not_isAlpha_of_isDigit hdigit
  · rfl
  · rfl

/-- A finite number is read back from its text, the sign of a zero included. -/
theorem parse?_chars_self (hf : F.fractionBits ≠ 0) (he : F.exponentBits ≠ 0) (hx : x.isFinite) :
    (parse? (x.chars .plain) : Option (BinaryFloat F)) = some x := by
  have hcode : x.code ≤ F.infinityCode := (isFinite_iff.1 hx).le
  rw [parse?_chars hf he hx,
    ofRat_signed hf x.negative x.writtenRat_nonneg (rounds_writtenRat hf x) hcode]
  rfl

end BinaryFloat

/-! ## Names of units -/

namespace DistanceUnit

variable {unit : DistanceUnit} {name : String}

/-- A text is a name of a unit: its symbol or its long name. -/
def IsNamed (unit : DistanceUnit) (name : String) : Prop :=
  name = unit.symbol ∨ name = unit.longName

theorem mem_all (unit : DistanceUnit) : unit ∈ all := by
  cases unit <;> decide

/-- Names are made of small letters, and no name is that of two units. -/
theorem IsNamed.spec (h : unit.IsNamed name) :
    name ≠ "" ∧ (∀ c ∈ name.toList, c.isAlpha ∧ IsVisible c ∧ c.toLower = c) ∧
      ofName? name = some unit := by
  have every : ∀ unit ∈ all, ∀ name ∈ [unit.symbol, unit.longName], name ≠ "" ∧
      name.toList.Forall (fun c => c.isAlpha ∧ IsVisible c ∧ c.toLower = c) ∧
        ofName? name = some unit := by decide
  have hname : name ∈ [unit.symbol, unit.longName] := by simpa [IsNamed] using h
  obtain ⟨hne, hletters, hfound⟩ := every unit unit.mem_all name hname
  exact ⟨hne, List.forall_iff_forall_mem.1 hletters, hfound⟩

theorem IsNamed.isWord (h : unit.IsNamed name) : IsWord name.toList where
  ne_nil := by simpa using h.spec.1
  small c hc := (h.spec.2.1 c hc).2

/-- A name is read as its unit. -/
theorem IsNamed.unit?_eq (h : unit.IsNamed name) : Distance.unit? name.toList = some unit := by
  have htrim := h.isWord.trimChars_between allBlank_nil allBlank_nil
  rw [List.nil_append, List.append_nil] at htrim
  rw [Distance.unit?, if_neg (by simpa using h.isWord.ne_nil), htrim, String.ofList_toList,
    h.spec.2.2]

end DistanceUnit

/-! ## Distances -/

namespace Distance

variable {d : Distance} {cs blanks name : List Char}

/-- The text spells the distance: its number and a name of its unit in any case, with blanks around
them, or a number of meters alone. -/
def IsSpelledBy (d : Distance) (s : String) : Prop :=
  (∃ name, d.unit.IsNamed name ∧ Spaced [d.value.chars .plain, name.toList] s.toList) ∨
    d.unit = .meters ∧ Spaced [d.value.chars .plain] s.toList

/-- What is left of the characters in small letters and without the blanks at their ends falls
apart at the first letter. -/
theorem parse?_of_folded (h : d.IsProper)
    (hfolded : (trimChars cs).map Char.toLower = d.value.chars .plain ++ blanks ++ name)
    (hblanks : AllBlank blanks) (hname : ∀ c ∈ name, c.isAlpha) (hunit : unit? name = some d.unit) :
    parse? cs = some d := by
  have hnumber : ∀ c ∈ d.value.chars .plain ++ blanks, !isUnitLetter c := by
    intro c hc
    rw [Bool.not_eq_true', isUnitLetter]
    rcases List.mem_append.1 hc with hc | hc
    · exact BinaryFloat.not_isAlpha_of_mem_chars h.1 hc
    · exact not_isAlpha_of_isBlank (hblanks c hc)
  have htake : (d.value.chars .plain ++ blanks ++ name).takeWhile (!isUnitLetter ·) =
      d.value.chars .plain ++ blanks := by
    rw [List.takeWhile_append_of_pos hnumber]
    cases name with
    | nil => simp
    | cons c rest => simp [isUnitLetter, hname c List.mem_cons_self]
  have hdrop : (d.value.chars .plain ++ blanks ++ name).dropWhile (!isUnitLetter ·) = name := by
    rw [List.dropWhile_append_of_pos hnumber]
    cases name with
    | nil => rfl
    | cons c rest => simp [isUnitLetter, hname c List.mem_cons_self]
  have htrim : trimChars (d.value.chars .plain ++ blanks) = d.value.chars .plain :=
    (BinaryFloat.isWord_chars h.1).trimChars_between allBlank_nil hblanks
  have hsign : d.value.lt (.zero false) = false := by
    rw [Bool.eq_false_iff]
    intro hlt
    exact ((BinaryFloat.lt_zero_iff h.1).1 hlt).not_ge h.2
  simp only [parse?, hfolded, htake, hdrop, htrim, hunit,
    BinaryFloat.parse?_chars_self (F := .double) (by decide) (by decide) h.1, Option.bind_eq_bind,
    Option.bind_some, h.1, hsign, Bool.not_false, Bool.and_true, if_true]

/-- A proper distance is read from every text that spells it. -/
theorem parse_of_isSpelledBy (h : d.IsProper) {s : String} (hs : d.IsSpelledBy s) :
    parse s = .ok d := by
  have hword := BinaryFloat.isWord_chars h.1
  have hread : parse? s.toList = some d := by
    rcases hs with ⟨name, hname, hspaced⟩ | ⟨hmeters, hspaced⟩
    · obtain ⟨blanks, hblanks, hfolded⟩ := hword.exists_of_spaced_pair hname.isWord hspaced
      exact parse?_of_folded h hfolded hblanks (fun c hc => (hname.spec.2.1 c hc).1) hname.unit?_eq
    · have hfolded : (trimChars s.toList).map Char.toLower = d.value.chars .plain ++ [] ++ [] := by
        rw [hword.spaced_singleton_iff.1 hspaced, List.append_nil, List.append_nil]
      have hunit : unit? [] = some d.unit := by
        rw [hmeters]
        rfl
      exact parse?_of_folded h hfolded allBlank_nil (by simp) hunit
  rw [parse, hread]

/-- The text of a distance spells it. -/
theorem isSpelledBy_text (d : Distance) : d.IsSpelledBy d.text := by
  refine .inl ⟨d.unit.symbol, .inl rfl, ?_⟩
  have htext : d.text.toList = [d.value.chars .plain, d.unit.symbol.toList].flatten := by
    simp [text, BinaryFloat.plainText, BinaryFloat.text]
  rw [htext]
  exact spaced_flatten _

/-- Distances are read back from their own texts and from all others that spell them, and only
proper distances are read. -/
theorem reads_spelled :
    (∀ d : Distance, d.IsProper → parse d.text = .ok d ∧ ∀ s, d.IsSpelledBy s → parse s = .ok d) ∧
      ∀ s d, parse s = .ok d → d.IsProper :=
  ⟨fun d h => ⟨parse_of_isSpelledBy h d.isSpelledBy_text, fun _ hs => parse_of_isSpelledBy h hs⟩,
    fun _ _ => isProper_of_parse⟩

/-- One mile and a half. -/
def sampleMiles : Distance := ⟨.ofBits 0x3ff8000000000000, .miles⟩

/-- A long name in capitals behind a wide blank. -/
theorem reads_spelled_miles :
    sampleMiles.IsProper ∧ sampleMiles.IsSpelledBy "\t1.5\u2003MILES " ∧
      parse "\t1.5\u2003MILES " = .ok sampleMiles := by
  have hproper : sampleMiles.IsProper := by
    refine ⟨by decide +kernel, ?_⟩
    rw [BinaryFloat.toRat_eq_signed]
    exact FloatFormat.magnitude_nonneg _ _
  have hchars : sampleMiles.value.chars .plain = ['1', '.', '5'] := by decide +kernel
  have hspelled : sampleMiles.IsSpelledBy "\t1.5\u2003MILES " := by
    refine .inl ⟨"miles", .inr rfl, ?_⟩
    rw [hchars]
    have htab : AllBlank ['\t'] := by decide
    have hspace : AllBlank ['\u2003'] := by decide
    have hend : AllBlank [' '] := by decide
    exact ⟨['\t'], ['1', '.', '5'], "\u2003MILES ".toList, rfl, htab, rfl,
      ['\u2003'], "MILES".toList, [' '], rfl, hspace, by decide, hend⟩
  exact ⟨hproper, hspelled, (reads_spelled.1 sampleMiles hproper).2 _ hspelled⟩

end Distance

end ColumnIndex
