import ColumnIndex.Proofs.Texts.Visible
import Mathlib.Tactic.Tauto

/-!
# The order of texts of digits

Digits of one length are in the order of the numbers that they spell, whether their characters are
compared or their bytes.

## Main definitions

* `Text.bytes` — the bytes of a text.

## Main statements

* `Text.bytes_lt_iff` — the order of the bytes is that of the characters.
* `Text.digits_lt_iff` — the order of digits is that of the numbers.
-/
namespace ColumnIndex.Text

/-- The bytes of a text. -/
def bytes (s : String) : List UInt8 := s.toUTF8.data.toList

/-! ## Bytes -/

section Bytes

variable {cs ds : List Char}

/-- A visible character is one byte. -/
theorem utf8EncodeChar_of_visible {c : Char} (h : IsVisible c) :
    String.utf8EncodeChar c = [UInt8.ofNat c.toNat] := by
  obtain ⟨-, hhigh⟩ := h
  exact if_pos (show c.toNat ≤ 127 by omega)

theorem bytes_ofList (h : ∀ c ∈ cs, IsVisible c) :
    bytes (String.ofList cs) = cs.map fun c => UInt8.ofNat c.toNat := by
  have hbytes : bytes (String.ofList cs) = cs.flatMap String.utf8EncodeChar := by
    simp [bytes, String.toUTF8, List.utf8Encode]
  rw [hbytes]
  induction cs with
  | nil => rfl
  | cons c cs ih =>
    obtain ⟨hc, hcs⟩ := List.forall_mem_cons.1 h
    have hrest := ih hcs (by simp [bytes, String.toUTF8, List.utf8Encode])
    rw [List.flatMap_cons, utf8EncodeChar_of_visible hc, hrest]
    rfl

/-- The byte of a visible character is its number. -/
theorem toNat_byte {c : Char} (h : IsVisible c) : (UInt8.ofNat c.toNat).toNat = c.toNat := by
  obtain ⟨-, hhigh⟩ := h
  rw [UInt8.toNat_ofNat']
  omega

/-- Texts of visible characters are in the order of their characters. -/
theorem bytes_lt_iff (hcs : ∀ c ∈ cs, IsVisible c) (hds : ∀ d ∈ ds, IsVisible d) :
    bytes (String.ofList cs) < bytes (String.ofList ds) ↔ cs < ds := by
  rw [bytes_ofList hcs, bytes_ofList hds]
  induction cs generalizing ds with
  | nil => cases ds <;> simp
  | cons c cs ih =>
    cases ds with
    | nil => simp
    | cons d ds =>
      obtain ⟨hc, hcs⟩ := List.forall_mem_cons.1 hcs
      obtain ⟨hd, hds⟩ := List.forall_mem_cons.1 hds
      have hlt : UInt8.ofNat c.toNat < UInt8.ofNat d.toNat ↔ c < d := by
        rw [UInt8.lt_iff_toNat_lt, toNat_byte hc, toNat_byte hd]
        rfl
      have heq : UInt8.ofNat c.toNat = UInt8.ofNat d.toNat ↔ c = d := by
        rw [← UInt8.toNat_inj, toNat_byte hc, toNat_byte hd, Char.toNat_inj]
      rw [List.map_cons, List.map_cons, List.cons_lt_cons_iff, List.cons_lt_cons_iff, hlt, heq,
        ih hcs hds]

end Bytes

/-! ## Digits -/

section Digits

variable {cs ds as bs : List Char}

theorem digitValue_lt {c : Char} (h : isDigit c) : digitValue c < 10 := by
  simp only [isDigit, Bool.and_eq_true, decide_eq_true_eq, Char.le_def, UInt32.le_iff_toNat_le] at h
  have hhigh : c.toNat ≤ 57 := h.2
  rw [digitValue]
  omega

theorem digitValue_lt_iff {c d : Char} (hc : isDigit c) (hd : isDigit d) :
    digitValue c < digitValue d ↔ c < d := by
  simp only [isDigit, Bool.and_eq_true, decide_eq_true_eq, Char.le_def, UInt32.le_iff_toNat_le]
    at hc hd
  have hlow : 48 ≤ c.toNat := hc.1
  have hlow' : 48 ≤ d.toNat := hd.1
  have hlt : c < d ↔ c.toNat < d.toNat := Iff.rfl
  rw [digitValue, digitValue, hlt]
  omega

theorem digitValue_inj {c d : Char} (hc : isDigit c) (hd : isDigit d) :
    digitValue c = digitValue d ↔ c = d := by
  simp only [isDigit, Bool.and_eq_true, decide_eq_true_eq, Char.le_def, UInt32.le_iff_toNat_le]
    at hc hd
  have hlow : 48 ≤ c.toNat := hc.1
  have hlow' : 48 ≤ d.toNat := hd.1
  rw [digitValue, digitValue, ← Char.toNat_inj]
  omega

/-- The first digit counts the power of ten that the others stay below. -/
theorem numberOf_cons (c : Char) (cs : List Char) :
    numberOf (c :: cs) = digitValue c * 10 ^ cs.length + numberOf cs := by
  have h := numberOf_append [c] cs
  have hone : numberOf [c] = digitValue c := by simp [numberOf]
  rwa [hone] at h

theorem numberOf_lt (h : ∀ c ∈ cs, isDigit c) : numberOf cs < 10 ^ cs.length := by
  induction cs with
  | nil => simp
  | cons c cs ih =>
    obtain ⟨hc, hcs⟩ := List.forall_mem_cons.1 h
    have hrest := ih hcs
    rw [numberOf_cons, List.length_cons, Nat.pow_succ, Nat.mul_comm _ 10]
    calc digitValue c * 10 ^ cs.length + numberOf cs
        < (digitValue c + 1) * 10 ^ cs.length := by rw [Nat.succ_mul]; omega
      _ ≤ 10 * 10 ^ cs.length := Nat.mul_le_mul_right _ (digitValue_lt hc)

/-- Parts that stay below a power do not touch what counts that power. -/
theorem mul_add_lt_iff {a b x y power : Nat} (hx : x < power) (hy : y < power) :
    a * power + x < b * power + y ↔ a < b ∨ a = b ∧ x < y := by
  rcases Nat.lt_trichotomy a b with h | rfl | h
  · have hstep : (a + 1) * power ≤ b * power := Nat.mul_le_mul_right _ h
    rw [Nat.succ_mul] at hstep
    exact iff_of_true (by omega) (.inl h)
  · simp
  · have hstep : (b + 1) * power ≤ a * power := Nat.mul_le_mul_right _ h
    rw [Nat.succ_mul] at hstep
    exact iff_of_false (by omega) (by omega)

/-- Digits of one length are in the order of the numbers that they spell. -/
theorem digits_lt_iff (hlength : cs.length = ds.length) (hcs : ∀ c ∈ cs, isDigit c)
    (hds : ∀ d ∈ ds, isDigit d) : cs < ds ↔ numberOf cs < numberOf ds := by
  induction cs generalizing ds with
  | nil =>
    obtain rfl := List.eq_nil_of_length_eq_zero hlength.symm
    simp
  | cons c cs ih =>
    cases ds with
    | nil => cases hlength
    | cons d ds =>
      obtain ⟨hc, hcs⟩ := List.forall_mem_cons.1 hcs
      obtain ⟨hd, hds⟩ := List.forall_mem_cons.1 hds
      have hlength : cs.length = ds.length := Nat.succ.inj hlength
      have hrest := numberOf_lt hcs
      have hrest' := numberOf_lt hds
      rw [hlength] at hrest
      rw [List.cons_lt_cons_iff, ih hlength hcs hds, ← digitValue_lt_iff hc hd,
        ← digitValue_inj hc hd, numberOf_cons, numberOf_cons, hlength, mul_add_lt_iff hrest hrest']

/-- Digits of one length that spell one number are the same. -/
theorem digits_eq_iff (hlength : cs.length = ds.length) (hcs : ∀ c ∈ cs, isDigit c)
    (hds : ∀ d ∈ ds, isDigit d) : cs = ds ↔ numberOf cs = numberOf ds := by
  constructor
  · rintro rfl
    rfl
  · intro h
    have hlt : ¬ cs < ds := by
      rw [digits_lt_iff hlength hcs hds]
      omega
    have hlt' : ¬ ds < cs := by
      rw [digits_lt_iff hlength.symm hds hcs]
      omega
    exact List.le_antisymm (List.not_lt.1 hlt') (List.not_lt.1 hlt)

/-- Beginnings of one length are compared first. -/
theorem append_lt_append_iff (hlength : as.length = bs.length) :
    as ++ cs < bs ++ ds ↔ as < bs ∨ as = bs ∧ cs < ds := by
  induction as generalizing bs with
  | nil =>
    obtain rfl := List.eq_nil_of_length_eq_zero hlength.symm
    simp
  | cons a as ih =>
    cases bs with
    | nil => cases hlength
    | cons b bs =>
      rw [List.cons_append, List.cons_append, List.cons_lt_cons_iff, List.cons_lt_cons_iff,
        ih (Nat.succ.inj hlength), List.cons.injEq]
      tauto

end Digits

end ColumnIndex.Text
