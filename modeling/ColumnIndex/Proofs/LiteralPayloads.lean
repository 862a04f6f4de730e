import ColumnIndex.Proofs.Number.Widening
import ColumnIndex.Proofs.Payload
import ColumnIndex.Proofs.Texts.Address
import ColumnIndex.Proofs.Texts.HexDigits
import ColumnIndex.Proofs.Texts.Uuid

/-!
# Payloads of literals

A condition holds a literal where the index holds a cell, so it finds the cell only if both have
the same payload. Where payloads are texts, they do: each kind of value that becomes a text in its
literal is read back from that text, and a fraction of single precision is the one exception.

Main statement: `Mapper.base_literal`.
-/
namespace ColumnIndex

open Outcome

/-! ## Literals as texts and names -/

/-- A mark for hexadecimal digits does not start with one of them and `x`. -/
theorem dropHexMark_hexOfBytes (bytes : List UInt8) :
    dropHexMark (Text.hexOfBytes bytes) = Text.hexOfBytes bytes := by
  cases bytes with
  | nil => rfl
  | cons b bytes =>
    have every : ∀ n < 16, Text.hexDigit n ≠ 'x' ∧ Text.hexDigit n ≠ 'X' := by decide
    have hb : b.toNat < 256 := b.toNat_lt
    obtain ⟨hx, hX⟩ := every (b.toNat % 16) (by omega)
    rw [Text.hexOfBytes]
    unfold dropHexMark
    split
    · rename_i hcs
      simp only [List.cons.injEq] at hcs
      exact absurd hcs.2.1 hx
    · rename_i hcs
      simp only [List.cons.injEq] at hcs
      exact absurd hcs.2.1 hX
    · rfl

namespace Value

variable {v : Value}

/-- The literal of a single value is one. -/
theorem isScalar_literal (v : Value) : v.literal.isScalar = v.isScalar := by
  have hdouble : ∀ x : Double, (doubleLiteral x).isScalar = true := by
    intro x
    unfold doubleLiteral
    split
    · rfl
    · rfl
  cases v with
  | float x => exact hdouble _
  | double x => exact hdouble _
  | _ => rfl

/-- The literal of a value that is no fraction of single precision has the text of the value. -/
theorem canonical?_literal (hfloat : ∀ x, v = .float x → x.isFinite = false) :
    v.literal.canonical? = v.canonical? := by
  have hdouble : ∀ x : Double, (doubleLiteral x).canonical? = some x.plainText := by
    intro x
    unfold doubleLiteral
    split
    · rfl
    · rfl
  cases v with
  | int i => simp [literal, canonical?]
  | float x =>
    rw [literal, hdouble, canonical?, (BinaryFloat.widen_of_not_isFinite (hfloat x rfl)).2]
  | double x => exact hdouble x
  | list items => rfl
  | _ => rfl

/-- Truth values and their texts stay as they are. -/
theorem toBool?_literal {b : Bool} (h : v.toBool? = some b) : v.literal.toBool? = some b := by
  cases v with
  | bool b => exact h
  | text s => exact h
  | _ => simp [toBool?] at h

theorem toHex?_literal {digits : String} (h : v.toHex? = some digits) :
    v.literal.toHex? = some digits := by
  cases v with
  | blob bytes =>
    have htrim : Text.trimChars (Text.hexOfBytes bytes) = Text.hexOfBytes bytes :=
      Text.trimChars_of_visible fun _ => Text.isVisible_of_mem_hexOfBytes
    have hliteral : (blob bytes).literal = text (String.ofList (Text.hexOfBytes bytes)) := rfl
    rw [hliteral, toHex?, String.toList_ofList, htrim, dropHexMark_hexOfBytes,
      Text.bytesOfHex?_hexOfBytes, Option.map_some, Text.map_toLower_hexOfBytes]
    exact h
  | text s => exact h
  | _ => simp [toHex?] at h

theorem toAddress?_literal {a : Address} (h : v.toAddress? = some a) :
    v.literal.toAddress? = some a := by
  cases v with
  | inet a' =>
    have htrim := Text.trimChars_of_visible fun _ => Address.isVisible_of_mem_chars (a := a')
    have hliteral : (inet a').literal = text (String.ofList a'.chars) := rfl
    rw [hliteral, toAddress?, String.toList_ofList, htrim, Address.parse?_chars]
    exact h
  | text s => exact h
  | _ => simp [toAddress?] at h

theorem toUuid?_literal {u : Uuid} (h : v.toUuid? = some u) : v.literal.toUuid? = some u := by
  cases v with
  | uuid u' =>
    have htrim := Text.trimChars_of_visible fun _ => Uuid.isVisible_of_mem_hyphenate (u := u')
    have hliteral : (uuid u').literal
        = text (String.ofList (Uuid.hyphenate (Text.hexOfBytes u'.bytes))) := rfl
    rw [hliteral, toUuid?, String.toList_ofList, htrim, Uuid.parse?_hyphenate]
    exact h
  | text s => exact h
  | _ => simp [toUuid?] at h

end Value

/-! ## Payloads -/

/-- The kinds of mappers whose payloads are texts and not numbers. -/
def namingTags : List MapperTag := [.string, .text, .boolean, .blob, .inet, .uuid]

variable {k : MapperKind} {v : Value} {base : FieldValue}

/-- The payload of a literal is that of the value. -/
theorem MapperKind.payload?_literal (hk : k.tag ∈ namingTags)
    (hfloat : ∀ x, v = .float x → x.isFinite = false) (h : k.payload? v = some base) :
    k.payload? v.literal = some base := by
  cases k with
  | string caseSensitive => simpa only [payload?, Value.canonical?_literal hfloat] using h
  | text analyzer => simpa only [payload?, Value.canonical?_literal hfloat] using h
  | boolean =>
    obtain ⟨b, hb, rfl⟩ := Option.map_eq_some_iff.1 h
    rw [payload?, Value.toBool?_literal hb, Option.map_some]
  | blob =>
    obtain ⟨digits, hdigits, rfl⟩ := Option.map_eq_some_iff.1 h
    rw [payload?, Value.toHex?_literal hdigits, Option.map_some]
  | inet =>
    obtain ⟨a, ha, rfl⟩ := Option.map_eq_some_iff.1 h
    rw [payload?, Value.toAddress?_literal ha, Option.map_some]
  | uuid =>
    obtain ⟨u, hu, rfl⟩ := Option.map_eq_some_iff.1 h
    rw [payload?, Value.toUuid?_literal hu, Option.map_some]
  | _ => simp [namingTags, MapperKind.tag] at hk

namespace Mapper

variable {m : Mapper} {column : String}

theorem base_eq_ok {payload : Option FieldValue} :
    (m.base column v).result = .ok payload ↔ m.coerce column v = .ok payload := by
  simp only [base, mapError_eq_ok]

/-- A mapper of texts gives a literal the payload of the value that it was made of. -/
theorem base_literal (hm : m.tag ∈ namingTags) (hv : v.isScalar)
    (hfloat : ∀ x, v = .float x → x.isFinite = false) {payload : Option FieldValue}
    (h : (m.base column v).result = .ok payload) :
    (m.base column v.literal).result = .ok payload := by
  have hspatial : m.tag.isSpatial = false := by
    have every : ∀ t ∈ namingTags, t.isSpatial = false := by decide
    exact every m.tag hm
  rw [base_eq_ok] at h ⊢
  cases payload with
  | none =>
    rw [coerce_eq_none] at h
    subst h
    simp [Value.isScalar, Value.isNull] at hv
  | some base =>
    rw [coerce_eq_some hspatial, MapperKind.coerce_eq_ok] at h ⊢
    exact ⟨by rw [Value.isScalar_literal, hv], MapperKind.payload?_literal hm hfloat h.2⟩

/-- A mapper of addresses. -/
def samplePeer : Mapper := ⟨"peer", "peer", true, false, defaultBoost, .inet⟩

/-- An address with a run of five zero groups. -/
def sampleAddress : Address := .long [0x2001, 0xdb8, 0, 0, 0, 0, 0, 0x42] rfl

/-- The literal of the address is its compressed text, and is read as the address. -/
theorem base_literal_compressed :
    (samplePeer.base "peer" (.inet sampleAddress)).result = .ok (some (.str "2001:db8::42")) ∧
      (samplePeer.base "peer" (Value.inet sampleAddress).literal).result
        = .ok (some (.str "2001:db8::42")) := by
  have h : (samplePeer.base "peer" (.inet sampleAddress)).result
      = .ok (some (.str "2001:db8::42")) := rfl
  have hfloat : ∀ x, Value.inet sampleAddress = .float x → x.isFinite = false := by
    intro x hx
    cases hx
  exact ⟨h, base_literal (by decide) rfl hfloat h⟩

end Mapper

end ColumnIndex
