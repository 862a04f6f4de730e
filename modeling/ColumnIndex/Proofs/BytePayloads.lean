import ColumnIndex.Proofs.Texts.HexDigits
import ColumnIndex.Proofs.WholeParts

/-!
# Bytes in the index

A mapper of bytes indexes a byte string under its hexadecimal digits. The byte order of these texts
is the order of the byte strings, so a range of texts is a range of byte strings. A text is taken
for the byte string whose digits it shows, in either case and with a mark in front or without; any
other text is refused.

## Main definitions

* `Text.ShowsHex` — the digits that a text shows.
* `Mapper.AnswersText` — the payload of a value is the text.
* `Mapper.KeepsBytes` — payloads follow byte strings.

Main statement: `Mapper.base_bytes_order`.
-/
namespace ColumnIndex

/-! ## Digits that a text shows -/

namespace Text

/-- What may stand in front of hexadecimal digits. -/
def hexMarks : List (List Char) := [[], ['0', 'x'], ['0', 'X']]

/-- But for blanks at its ends and for one mark at most, the text is an even number of hexadecimal
digits. -/
def ShowsHex (s : String) (digits : List Char) : Prop :=
  (∃ mark ∈ hexMarks, trimChars s.toList = mark ++ digits) ∧ Even digits.length ∧
    ∀ c ∈ digits, IsHexDigit c

/-- Digits have no mark in front that could be dropped. -/
theorem dropHexMark_of_bytesOfHex? {digits : List Char} {bytes : List UInt8}
    (h : bytesOfHex? digits = some bytes) : dropHexMark digits = digits := by
  unfold dropHexMark
  split
  · simp [bytesOfHex?, hexValue?] at h
  · simp [bytesOfHex?, hexValue?] at h
  · rfl

/-- Bytes are read from what a mark leaves. -/
theorem bytesOfHex?_dropHexMark {cs : List Char} {bytes : List UInt8} :
    bytesOfHex? (dropHexMark cs) = some bytes ↔
      ∃ mark ∈ hexMarks, ∃ digits, cs = mark ++ digits ∧ bytesOfHex? digits = some bytes := by
  constructor
  · intro h
    unfold dropHexMark at h
    split at h
    · exact ⟨['0', 'x'], by decide, _, rfl, h⟩
    · exact ⟨['0', 'X'], by decide, _, rfl, h⟩
    · exact ⟨[], by decide, _, rfl, h⟩
  · rintro ⟨mark, hmark, digits, rfl, h⟩
    simp only [hexMarks, List.mem_cons, List.not_mem_nil, or_false] at hmark
    rcases hmark with rfl | rfl | rfl
    · rwa [List.nil_append, dropHexMark_of_bytesOfHex? h]
    · exact h
    · exact h

end Text

/-! ## Texts of values -/

namespace Value

/-- The digits of a text, in lower case, are those of the bytes that it spells. -/
theorem toHex?_text_eq (s : String) :
    (text s).toHex? = (Text.bytesOfHex? (dropHexMark (Text.trimChars s.toList))).map fun bytes =>
      String.ofList (Text.hexOfBytes bytes) := by
  refine Option.map_congr fun bytes hbytes => ?_
  rw [Text.bytesOfHex?_eq_some_iff.1 hbytes]

theorem toHex?_text {s digits : String} :
    (text s).toHex? = some digits ↔ ∃ bytes, digits = String.ofList (Text.hexOfBytes bytes) ∧
      ∃ mark ∈ Text.hexMarks, ∃ shown, Text.trimChars s.toList = mark ++ shown ∧
        Text.bytesOfHex? shown = some bytes := by
  simp only [toHex?_text_eq, Option.map_eq_some_iff, Text.bytesOfHex?_dropHexMark]
  exact exists_congr fun bytes => by rw [and_comm, eq_comm]

/-- A text has the digits of bytes if it shows some. -/
theorem exists_toHex?_text_iff {s : String} :
    (∃ digits, (text s).toHex? = some digits) ↔ ∃ shown, Text.ShowsHex s shown := by
  simp only [toHex?_text, Text.ShowsHex, ← Text.exists_bytesOfHex?_iff]
  constructor
  · rintro ⟨-, bytes, rfl, mark, hmark, shown, hs, hbytes⟩
    exact ⟨shown, ⟨mark, hmark, hs⟩, bytes, hbytes⟩
  · rintro ⟨shown, ⟨mark, hmark, hs⟩, bytes, hbytes⟩
    exact ⟨_, bytes, rfl, mark, hmark, shown, hs, hbytes⟩

end Value

/-! ## Payloads -/

namespace Mapper

/-- The payload of the value is the text. -/
def AnswersText (m : Mapper) (column : String) (v : Value) (s : String) : Prop :=
  (m.base column v).result = .ok (some (.str s))

/-- The payloads of byte strings follow their order, and those of texts the bytes that they show. -/
structure KeepsBytes (m : Mapper) (column : String) : Prop where
  /-- Byte strings and the bytes of their payloads are in the same order. -/
  ordered (as bs : List UInt8) :
    ∃ s t, m.AnswersText column (.blob as) s ∧ m.AnswersText column (.blob bs) t ∧
      (Text.bytes s < Text.bytes t ↔ as < bs) ∧ (s = t ↔ as = bs)
  /-- A text is accepted if it shows digits. -/
  accepted (s : String) :
    (∃ base, (m.base column (.text s)).result = .ok (some base)) ↔ ∃ shown, Text.ShowsHex s shown
  /-- The text of digits in either case has the payload of the bytes that are written so, which is
  the digits in lower case. -/
  shown {s : String} {digits : List Char} (h : Text.ShowsHex s digits) :
    ∃ bytes, digits.map Char.toLower = Text.hexOfBytes bytes ∧
      (m.base column (.text s)).result = (m.base column (.blob bytes)).result ∧
      m.AnswersText column (.text s) (String.ofList (digits.map Char.toLower))
  /-- Any other text is a fault of coercion. -/
  refused {s : String} (h : ∀ digits, ¬Text.ShowsHex s digits) :
    ∃ e, (m.base column (.text s)).result = .error e ∧ e.errorClass = .coercion

variable {m : Mapper} {column : String} {v : Value}

theorem isSpatial_of_blob (hm : m.kind = .blob) : m.tag.isSpatial = false := by
  rw [tag, hm]
  rfl

theorem base_blob_eq_ok (hm : m.kind = .blob) (hv : v.isScalar) {base : FieldValue} :
    (m.base column v).result = .ok (some base) ↔ ∃ s, v.toHex? = some s ∧ .str s = base := by
  rw [base_eq_ok_some (isSpatial_of_blob hm), hm, MapperKind.payload?, Option.map_eq_some_iff]
  exact and_iff_right hv

theorem answersText_iff (hm : m.kind = .blob) (hv : v.isScalar) {s : String} :
    m.AnswersText column v s ↔ v.toHex? = some s := by
  rw [AnswersText, base_blob_eq_ok hm hv]
  simp

theorem answersText_blob (hm : m.kind = .blob) (column : String) (bytes : List UInt8) :
    m.AnswersText column (.blob bytes) (String.ofList (Text.hexOfBytes bytes)) :=
  (answersText_iff hm rfl).2 rfl

/-- A mapper of bytes keeps byte strings apart and in their order, byte by byte, whatever their
lengths. It accepts a text that shows the digits of bytes, and gives it the payload of these
bytes. -/
theorem base_bytes_order (hm : m.kind = .blob) (column : String) : m.KeepsBytes column where
  ordered as bs := by
    refine ⟨_, _, answersText_blob hm column as, answersText_blob hm column bs, ?_, ?_⟩
    · rw [Text.bytes_lt_iff (fun _ => Text.isVisible_of_mem_hexOfBytes)
        (fun _ => Text.isVisible_of_mem_hexOfBytes), Text.hexOfBytes_lt_iff]
    · rw [String.ofList_inj, Text.hexOfBytes_injective.eq_iff]
  accepted s := by
    rw [← Value.exists_toHex?_text_iff]
    simp only [base_blob_eq_ok hm (v := .text s) rfl]
    exact ⟨fun ⟨_, digits, h, _⟩ => ⟨digits, h⟩, fun ⟨digits, h⟩ => ⟨_, digits, h, rfl⟩⟩
  shown {s digits} h := by
    obtain ⟨⟨mark, hmark, hs⟩, hdigits⟩ := h
    obtain ⟨bytes, hbytes⟩ := Text.exists_bytesOfHex?_iff.2 hdigits
    have hlower := Text.bytesOfHex?_eq_some_iff.1 hbytes
    have htext : m.AnswersText column (.text s) (String.ofList (Text.hexOfBytes bytes)) :=
      (answersText_iff hm rfl).2 (Value.toHex?_text.2 ⟨bytes, rfl, mark, hmark, digits, hs, hbytes⟩)
    exact ⟨bytes, hlower, htext.trans (answersText_blob hm column bytes).symm, hlower ▸ htext⟩
  refused {s} h := by
    apply exists_base_error (isSpatial_of_blob hm) rfl
    rw [hm, MapperKind.payload?, Option.map_eq_none_iff, Option.eq_none_iff_forall_ne_some]
    intro digits hdigits
    obtain ⟨shown, hshown⟩ := Value.exists_toHex?_text_iff.1 ⟨digits, hdigits⟩
    exact h shown hshown

/-- A mapper of checksums. -/
def sampleChecksum : Mapper := ⟨"checksum", "checksum", true, false, defaultBoost, .blob⟩

/-- A byte string comes before those that continue it, and blanks, a mark and capitals do not
matter. -/
theorem base_bytes_order_checksum :
    sampleChecksum.kind = .blob ∧
      (∃ s t, sampleChecksum.AnswersText "checksum" (.blob [0x9f]) s ∧
        sampleChecksum.AnswersText "checksum" (.blob [0x9f, 0x00]) t ∧
        Text.bytes s < Text.bytes t) ∧
      sampleChecksum.AnswersText "checksum" (.text " 0X9Fa0\n") "9fa0" := by
  have hkeeps := base_bytes_order (m := sampleChecksum) rfl "checksum"
  obtain ⟨s, t, hs, ht, hlt, -⟩ := hkeeps.ordered [0x9f] [0x9f, 0x00]
  have hshown : Text.ShowsHex " 0X9Fa0\n" ['9', 'F', 'a', '0'] :=
    ⟨⟨['0', 'X'], by decide, by decide⟩, by decide, List.forall_iff_forall_mem.1 (by decide)⟩
  obtain ⟨-, -, -, htext⟩ := hkeeps.shown hshown
  exact ⟨rfl, ⟨s, t, hs, ht, hlt.2 (by decide)⟩, htext⟩

end Mapper

end ColumnIndex
