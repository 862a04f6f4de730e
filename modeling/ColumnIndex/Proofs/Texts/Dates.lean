import ColumnIndex.Calendar.Reading
import ColumnIndex.Proofs.Texts.Visible

/-!
# Dates are read by their parts

A pattern reads the bytes of a text. Numbers of a fixed width are read where they were written, and
so is the year of a date with its sign. From there on it depends on the literals of the pattern
whether the rest of the date is read.

## Main statements

* `Pattern.read?_date` — a date is read by the pattern that has its form.
* `Pattern.read?_slashed_eq_none` — a pattern with a slash after the year reads no date.
-/
namespace ColumnIndex

namespace Text

/-- What starts with visible characters keeps them when the blanks are cut off its ends. -/
theorem exists_trimChars_append {cs : List Char} (hne : cs ≠ []) (h : ∀ c ∈ cs, IsVisible c)
    (rest : List Char) : ∃ rest', trimChars (cs ++ rest) = cs ++ rest' := by
  obtain ⟨c, tail, rfl⟩ := List.exists_cons_of_ne_nil hne
  have hc : isBlank c = false := (h c (List.mem_cons_self ..)).not_isBlank
  have hstart : trimStart (c :: tail ++ rest) = c :: tail ++ rest := by
    simp [trimStart, hc]
  have hself : (c :: tail).reverse.dropWhile isBlank = (c :: tail).reverse := by
    rw [← List.reverse_inj, List.reverse_reverse]
    have htrim := trimChars_of_visible h
    rwa [trimChars, trimStart, List.dropWhile_cons_of_neg (by simp [hc]), trimEnd] at htrim
  rw [trimChars, hstart, trimEnd, List.reverse_append, List.dropWhile_append]
  split
  · rw [hself, List.reverse_reverse]
    exact ⟨[], by simp⟩
  · rw [List.reverse_append, List.reverse_reverse]
    exact ⟨_, rfl⟩

end Text

/-! ## The characters of a date -/

/-- No month has more than thirty-one days. -/
theorem Calendar.daysInMonth_le (year : Int) (month : Nat) : daysInMonth year month ≤ 31 := by
  have hfebruary : (if isLeapYear year then 29 else 28) ≤ 31 := by
    split
    · decide
    · decide
  unfold daysInMonth
  split <;> omega

namespace Date

/-- The sign and the digits of the year. -/
def yearChars (d : Date) : List Char :=
  (if d.year < 0 then ['-'] else []) ++ Text.paddedDigits 4 d.year.natAbs

theorem chars_eq (d : Date) :
    d.chars = d.yearChars
      ++ '-' :: (Text.paddedDigits 2 d.month ++ '-' :: Text.paddedDigits 2 d.day) := by
  simp [chars, yearChars]

theorem isVisible_of_mem_chars {d : Date} {c : Char} (h : c ∈ d.chars) : Text.IsVisible c := by
  have hdash : Text.IsVisible '-' := by decide
  have hdigits : ∀ width n, c ∈ Text.paddedDigits width n → Text.IsVisible c := fun _ _ hc =>
    Text.isVisible_of_isDigit (Text.isDigit_of_mem_paddedDigits hc)
  rw [chars_eq, yearChars] at h
  simp only [List.mem_append, List.mem_cons] at h
  rcases h with (h | h) | rfl | h | rfl | h
  · split at h
    · rw [List.mem_singleton.1 h]
      exact hdash
    · cases h
  · exact hdigits _ _ h
  · exact hdash
  · exact hdigits _ _ h
  · exact hdash
  · exact hdigits _ _ h

end Date

/-! ## Reading the parts -/

namespace Pattern

theorem bytesOf_append (cs ds : List Char) : bytesOf (cs ++ ds) = bytesOf cs ++ bytesOf ds :=
  List.flatMap_append

theorem bytesOf_cons (c : Char) (cs : List Char) :
    bytesOf (c :: cs) = String.utf8EncodeChar c ++ bytesOf cs :=
  List.flatMap_cons

/-- A digit is one byte. -/
theorem exists_byte_of_isDigit {c : Char} (h : Text.isDigit c) :
    ∃ b, String.utf8EncodeChar c = [b] ∧ isDigitByte b ∧ b.toNat - 48 = Text.digitValue c := by
  simp only [Text.isDigit, Bool.and_eq_true, decide_eq_true_eq, Char.le_def,
    UInt32.le_iff_toNat_le] at h
  obtain ⟨hlow, hhigh⟩ := h
  have hlow : 48 ≤ c.toNat := hlow
  have hhigh : c.toNat ≤ 57 := hhigh
  have hbyte : (UInt8.ofNat c.toNat).toNat = c.toNat := by
    rw [UInt8.toNat_ofNat']
    omega
  refine ⟨UInt8.ofNat c.toNat, ?_, ?_, ?_⟩
  · exact if_pos (show c.toNat ≤ 127 by omega)
  · simp only [isDigitByte, Bool.and_eq_true, decide_eq_true_eq, UInt8.le_iff_toNat_le, hbyte]
    exact ⟨hlow, hhigh⟩
  · rw [hbyte, Text.digitValue]

/-- The bytes of digits spell the same number. -/
theorem bytesOf_digits {cs : List Char} (h : ∀ c ∈ cs, Text.isDigit c) :
    (bytesOf cs).length = cs.length ∧ (∀ b ∈ bytesOf cs, isDigitByte b) ∧
      ∀ m, (bytesOf cs).foldl (fun n b => 10 * n + (b.toNat - 48)) m
        = cs.foldl (fun n c => 10 * n + Text.digitValue c) m := by
  induction cs with
  | nil => simp [bytesOf]
  | cons c cs ih =>
    obtain ⟨b, hb, hdigit, hvalue⟩ := exists_byte_of_isDigit (h c (List.mem_cons_self ..))
    obtain ⟨hlength, hdigits, hfold⟩ := ih fun c hc => h c (List.mem_cons_of_mem _ hc)
    rw [bytesOf_cons, hb, List.singleton_append]
    refine ⟨by simp [hlength], ?_, ?_⟩
    · intro b' hb'
      rcases List.mem_cons.1 hb' with rfl | hb'
      · exact hdigit
      · exact hdigits b' hb'
    · intro m
      rw [List.foldl_cons, List.foldl_cons, hvalue, hfold]

/-- A number in its width is read, whatever follows. -/
theorem digits?_paddedDigits {width n : Nat} (hwidth : 0 < width) (h : n < 10 ^ width)
    (rest : Bytes) :
    digits? width width (bytesOf (Text.paddedDigits width n) ++ rest) = some (n, rest) := by
  have hpadded : ∀ c ∈ Text.paddedDigits width n, Text.isDigit c := fun _ =>
    Text.isDigit_of_mem_paddedDigits
  obtain ⟨hlength, hdigits, hfold⟩ := bytesOf_digits hpadded
  rw [Text.length_paddedDigits hwidth h] at hlength
  have hrun : (bytesOf (Text.paddedDigits width n)).takeWhile isDigitByte
      = bytesOf (Text.paddedDigits width n) := by
    have happend : (bytesOf (Text.paddedDigits width n) ++ []).takeWhile isDigitByte
        = bytesOf (Text.paddedDigits width n) ++ [].takeWhile isDigitByte :=
      List.takeWhile_append_of_pos hdigits
    simpa using happend
  have hnumber : numberOfBytes (bytesOf (Text.paddedDigits width n)) = n := by
    rw [numberOfBytes, hfold]
    exact Text.numberOf_paddedDigits width n
  simp only [digits?, List.take_left' hlength, hrun, hlength, hnumber, Nat.lt_irrefl, if_false,
    List.drop_left' hlength]

/-- Digits do not start with a sign. -/
theorem sign?_paddedDigits {width n : Nat} (hwidth : 0 < width) (h : n < 10 ^ width)
    (rest : Bytes) :
    sign? (bytesOf (Text.paddedDigits width n) ++ rest)
      = (none, bytesOf (Text.paddedDigits width n) ++ rest) := by
  have hpadded : ∀ c ∈ Text.paddedDigits width n, Text.isDigit c := fun _ =>
    Text.isDigit_of_mem_paddedDigits
  obtain ⟨hlength, hdigits, -⟩ := bytesOf_digits hpadded
  rw [Text.length_paddedDigits hwidth h] at hlength
  cases hbytes : bytesOf (Text.paddedDigits width n) with
  | nil =>
    rw [hbytes, List.length_nil] at hlength
    omega
  | cons b bs =>
    have hb : isDigitByte b := hdigits b (hbytes ▸ List.mem_cons_self ..)
    rw [List.cons_append]
    unfold sign?
    split
    · rename_i hcs
      cases (List.cons.inj hcs).1
      exact absurd hb (by decide)
    · rename_i hcs
      cases (List.cons.inj hcs).1
      exact absurd hb (by decide)
    · rfl

/-- The year of a date is read with its sign, whatever follows. -/
theorem yearDigits?_yearChars (d : Date) (rest : Bytes) :
    ∃ year, yearDigits? .zero 4 4 false (bytesOf d.yearChars ++ rest) = some (year, rest) ∧
      year.signed = d.year := by
  have hyear : d.year.natAbs < 10 ^ 4 := by
    obtain ⟨hlow, hhigh⟩ := d.year_range
    omega
  have hdigits := digits?_paddedDigits (by decide) hyear rest
  by_cases hneg : d.year < 0
  · refine ⟨⟨true, d.year.natAbs⟩, ?_, ?_⟩
    · have hchars : bytesOf d.yearChars = 45 :: bytesOf (Text.paddedDigits 4 d.year.natAbs) := by
        rw [Date.yearChars, if_pos hneg]
        rfl
      simp only [hchars, List.cons_append, yearDigits?, sign?, number?, hdigits, Option.map_some]
    · simp only [Century.signed, if_true]
      omega
  · refine ⟨⟨false, d.year.natAbs⟩, ?_, ?_⟩
    · have hchars : d.yearChars = Text.paddedDigits 4 d.year.natAbs := by
        rw [Date.yearChars, if_neg hneg, List.nil_append]
      simp only [hchars, yearDigits?, sign?_paddedDigits (show 0 < 4 by decide) hyear, number?,
        hdigits, Option.map_some]
      rfl
    · simp only [Century.signed, Bool.false_eq_true, if_false]
      omega

/-! ## Reading dates -/

/-- The whole year, with zeros in front. -/
def yearItem : Item := .component (.year .zero .full false false)

/-- The number of the month, with a zero in front. -/
def monthItem : Item := .component (.month .zero .number true)

/-- The day of the month, with a zero in front. -/
def dayItem : Item := .component (.day .zero)

/-- What a pattern says in so many words is read where it was written. -/
theorem readItems_literal (r : Reading) (text : List Char) (rest : Bytes) (items : List Item) :
    readItems r (bytesOf text ++ rest) (.literal text :: items) = readItems r rest items := by
  simp [readItems]

/-- The year is the first thing that a date says. -/
theorem readItems_year (d : Date) (rest : Bytes) (items : List Item) :
    readItems {} (bytesOf d.yearChars ++ rest) (yearItem :: items)
      = readItems { year := some d.year } rest items := by
  obtain ⟨year, hread, hyear⟩ := yearDigits?_yearChars d rest
  simp only [yearItem, readItems, readComponent, hread, ← hyear]
  rfl

theorem readItems_month (r : Reading) (d : Date) (rest : Bytes) (items : List Item) :
    readItems r (bytesOf (Text.paddedDigits 2 d.month) ++ rest) (monthItem :: items)
      = readItems { r with month := some d.month } rest items := by
  obtain ⟨hlow, hhigh⟩ := d.month_range
  have hread := digits?_paddedDigits (show 0 < 2 by decide) (show d.month < 10 ^ 2 by omega) rest
  simp only [monthItem, readItems, readComponent, number?, hread, Option.bind_eq_bind,
    Option.bind_some, within, hlow, hhigh, and_self, if_true]
  rfl

theorem readItems_day (r : Reading) (d : Date) (rest : Bytes) (items : List Item) :
    readItems r (bytesOf (Text.paddedDigits 2 d.day) ++ rest) (dayItem :: items)
      = readItems { r with day := some d.day } rest items := by
  obtain ⟨hlow, hhigh⟩ := d.day_range
  have hmost : d.day ≤ 31 := Nat.le_trans hhigh (Calendar.daysInMonth_le d.year d.month)
  have hread := digits?_paddedDigits (show 0 < 2 by decide) (show d.day < 10 ^ 2 by omega) rest
  simp only [dayItem, readItems, readComponent, number?, hread, Option.bind_eq_bind,
    Option.bind_some, within, hlow, hmost, and_self, if_true]
  rfl

/-- A pattern with a slash after the year reads nothing that starts with a date. -/
theorem read?_slashed_eq_none (d : Date) (rest : List Char) (items : List Item) :
    read? (yearItem :: .literal ['/'] :: items) (d.chars ++ rest) = none := by
  have hbytes : bytesOf (d.chars ++ rest) = bytesOf d.yearChars ++
      45 :: bytesOf (Text.paddedDigits 2 d.month ++ '-' :: Text.paddedDigits 2 d.day ++ rest) := by
    rw [Date.chars_eq, List.append_assoc, bytesOf_append, List.cons_append, bytesOf_cons]
    rfl
  have hslash : bytesOf ['/'] = [47] := rfl
  rw [read?, hbytes, readItems_year]
  simp [readItems, hslash]

/-- A date is read by the pattern that has its form. -/
theorem read?_date (d : Date) :
    read? [yearItem, .literal ['-'], monthItem, .literal ['-'], dayItem] d.chars
      = some { year := some d.year, month := some d.month, day := some d.day } := by
  have hbytes : bytesOf d.chars = bytesOf d.yearChars ++ (bytesOf ['-']
      ++ (bytesOf (Text.paddedDigits 2 d.month) ++ (bytesOf ['-']
        ++ (bytesOf (Text.paddedDigits 2 d.day) ++ [])))) := by
    simp only [← bytesOf_append, List.append_nil, Date.chars_eq]
    rfl
  rw [read?, hbytes, readItems_year, readItems_literal, readItems_month, readItems_literal,
    readItems_day, readItems]

end Pattern

end ColumnIndex
