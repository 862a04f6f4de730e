import ColumnIndex.Proofs.Texts.DigitOrder

/-!
# Hexadecimal digits of bytes

Each byte is written as two digits, of which the first counts sixteen, so the digits of byte
strings are in the order of the byte strings whatever their lengths are. Digits are read in either
case, and bytes are read from exactly those texts which they are written as but for the case.

## Main definitions

* `Text.IsHexDigit` — the digits of either case.

## Main statements

* `Text.hexOfBytes_lt_iff` — the order of written bytes.
* `Text.bytesOfHex?_eq_some_iff` — the texts that bytes are read from.
* `Text.exists_bytesOfHex?_iff` — the texts that some bytes are read from.
-/
namespace ColumnIndex.Text

/-! ## Order -/

theorem hexDigit_lt_iff {m n : Nat} (hm : m < 16) (hn : n < 16) :
    hexDigit m < hexDigit n ↔ m < n := by
  have every : ∀ i j : Fin 16, hexDigit i < hexDigit j ↔ i.val < j.val := by decide
  exact every ⟨m, hm⟩ ⟨n, hn⟩

theorem hexDigit_inj {m n : Nat} (hm : m < 16) (hn : n < 16) :
    hexDigit m = hexDigit n ↔ m = n := by
  constructor
  · intro h
    have hvalue := hexValue?_hexDigit hm
    rw [h, hexValue?_hexDigit hn, Option.some.injEq] at hvalue
    exact hvalue.symm
  · rintro rfl
    rfl

theorem hexOfBytes_injective : Function.Injective hexOfBytes := by
  intro as bs h
  have hread := bytesOfHex?_hexOfBytes as
  rw [h, bytesOfHex?_hexOfBytes, Option.some.injEq] at hread
  exact hread.symm

/-- The digits of byte strings are in the order of the byte strings. -/
theorem hexOfBytes_lt_iff {as bs : List UInt8} : hexOfBytes as < hexOfBytes bs ↔ as < bs := by
  induction as generalizing bs with
  | nil => cases bs <;> simp [hexOfBytes]
  | cons a as ih =>
    cases bs with
    | nil => simp [hexOfBytes]
    | cons b bs =>
      have ha : a.toNat < 256 := a.toNat_lt
      have hb : b.toNat < 256 := b.toNat_lt
      rw [hexOfBytes, hexOfBytes, List.cons_lt_cons_iff, List.cons_lt_cons_iff,
        List.cons_lt_cons_iff, ih, hexDigit_lt_iff (by omega) (by omega),
        hexDigit_lt_iff (by omega) (by omega), hexDigit_inj (by omega) (by omega),
        hexDigit_inj (by omega) (by omega), UInt8.lt_iff_toNat_lt, ← UInt8.toNat_inj]
      -- The two digits are compared as the quotient and then the remainder by sixteen.
      have hlt : a.toNat < b.toNat ↔ a.toNat / 16 < b.toNat / 16 ∨
          a.toNat / 16 = b.toNat / 16 ∧ a.toNat % 16 < b.toNat % 16 := by omega
      have heq : a.toNat = b.toNat ↔
          a.toNat / 16 = b.toNat / 16 ∧ a.toNat % 16 = b.toNat % 16 := by omega
      tauto

/-! ## Digits of either case -/

section Digits

variable {c : Char} {n : Nat}

/-- The digits of either case. -/
def IsHexDigit (c : Char) : Prop := '0' ≤ c ∧ c ≤ '9' ∨ 'a' ≤ c ∧ c ≤ 'f' ∨ 'A' ≤ c ∧ c ≤ 'F'

instance (c : Char) : Decidable (IsHexDigit c) := inferInstanceAs (Decidable (_ ∨ _))

theorem exists_hexValue?_iff : (∃ n, hexValue? c = some n) ↔ IsHexDigit c := by
  unfold hexValue? IsHexDigit
  split
  · simp [*]
  · split
    · simp [*]
    · split
      · simp [*]
      · simp [*]

theorem toLower_of_not_ascii (h : ¬c.toNat < 128) : c.toLower = c := by
  unfold Char.toLower
  split
  · rename_i hupper
    have hmost : c.toNat ≤ 90 := hupper.2
    omega
  · rfl

/-- The case of a digit does not matter. -/
theorem hexValue?_toLower (c : Char) : hexValue? c.toLower = hexValue? c := by
  by_cases h : c.toNat < 128
  · exact ascii_cases (P := fun c => hexValue? c.toLower = hexValue? c) (by decide) h
  · rw [toLower_of_not_ascii h]

/-- A digit of either case is, in lower case, the digit that its value is written as. -/
theorem hexValue?_eq_some_iff : hexValue? c = some n ↔ n < 16 ∧ c.toLower = hexDigit n := by
  constructor
  · intro h
    have hascii : c.toNat < 128 := by
      have hc := exists_hexValue?_iff.1 ⟨n, h⟩
      simp only [IsHexDigit, Char.le_def, UInt32.le_iff_toNat_le] at hc
      rcases hc with ⟨-, hc⟩ | ⟨-, hc⟩ | ⟨-, hc⟩
      · exact Nat.lt_of_le_of_lt hc (by decide)
      · exact Nat.lt_of_le_of_lt hc (by decide)
      · exact Nat.lt_of_le_of_lt hc (by decide)
    exact ascii_cases (P := fun c => ∀ m ∈ hexValue? c, m < 16 ∧ c.toLower = hexDigit m)
      (by decide) hascii n h
  · rintro ⟨hn, hc⟩
    rw [← hexValue?_toLower, hc, hexValue?_hexDigit hn]

end Digits

/-! ## Bytes -/

section Bytes

variable {cs : List Char} {bytes : List UInt8}

theorem bytesOfHex?_pair {a b : Char} {byte : UInt8} :
    bytesOfHex? (a :: b :: cs) = some (byte :: bytes) ↔
      hexValue? a = some (byte.toNat / 16) ∧ hexValue? b = some (byte.toNat % 16) ∧
        bytesOfHex? cs = some bytes := by
  have hbyte : byte.toNat < 256 := byte.toNat_lt
  simp only [bytesOfHex?, Option.bind_eq_bind, Option.bind_eq_some_iff, Option.pure_def,
    Option.some.injEq, List.cons.injEq]
  constructor
  · rintro ⟨high, ha, low, hb, rest, hrest, rfl, rfl⟩
    have hhigh := (hexValue?_eq_some_iff.1 ha).1
    have hlow := (hexValue?_eq_some_iff.1 hb).1
    have hvalue : (UInt8.ofNat (16 * high + low)).toNat = 16 * high + low := by
      rw [UInt8.toNat_ofNat']
      omega
    rw [hvalue, show (16 * high + low) / 16 = high by omega,
      show (16 * high + low) % 16 = low by omega]
    exact ⟨ha, hb, hrest⟩
  · rintro ⟨ha, hb, hrest⟩
    refine ⟨_, ha, _, hb, _, hrest, ?_, rfl⟩
    rw [Nat.div_add_mod, UInt8.ofNat_toNat]

/-- Bytes are read from the digits that they are written as, whatever the case of these. -/
theorem bytesOfHex?_eq_some_iff :
    bytesOfHex? cs = some bytes ↔ cs.map Char.toLower = hexOfBytes bytes := by
  induction cs using bytesOfHex?.induct generalizing bytes with
  | case1 => cases bytes <;> simp [bytesOfHex?, hexOfBytes]
  | case2 c => cases bytes <;> simp [bytesOfHex?, hexOfBytes]
  | case3 a b cs ih =>
    cases bytes with
    | nil => simp [bytesOfHex?, hexOfBytes, Option.bind_eq_some_iff]
    | cons byte bytes =>
      have hbyte : byte.toNat < 256 := byte.toNat_lt
      have hhigh : byte.toNat / 16 < 16 := by omega
      have hlow : byte.toNat % 16 < 16 := by omega
      rw [bytesOfHex?_pair, ih, hexValue?_eq_some_iff, hexValue?_eq_some_iff, hexOfBytes,
        List.map_cons, List.map_cons, List.cons.injEq, List.cons.injEq]
      simp only [hhigh, hlow, true_and]

/-- The digits of bytes are in lower case. -/
theorem map_toLower_hexOfBytes (bytes : List UInt8) :
    (hexOfBytes bytes).map Char.toLower = hexOfBytes bytes :=
  bytesOfHex?_eq_some_iff.1 (bytesOfHex?_hexOfBytes bytes)

/-- Bytes are read from the texts of an even number of digits. -/
theorem exists_bytesOfHex?_iff :
    (∃ bytes, bytesOfHex? cs = some bytes) ↔ Even cs.length ∧ ∀ c ∈ cs, IsHexDigit c := by
  induction cs using bytesOfHex?.induct with
  | case1 => simp [bytesOfHex?]
  | case2 c => simp [bytesOfHex?]
  | case3 a b cs ih =>
    have hpair : (∃ bytes, bytesOfHex? (a :: b :: cs) = some bytes) ↔
        IsHexDigit a ∧ IsHexDigit b ∧ ∃ bytes, bytesOfHex? cs = some bytes := by
      rw [← exists_hexValue?_iff, ← exists_hexValue?_iff]
      simp only [bytesOfHex?, Option.bind_eq_bind, Option.bind_eq_some_iff, Option.pure_def,
        Option.some.injEq]
      constructor
      · rintro ⟨-, high, ha, low, hb, rest, hrest, -⟩
        exact ⟨⟨high, ha⟩, ⟨low, hb⟩, rest, hrest⟩
      · rintro ⟨⟨high, ha⟩, ⟨low, hb⟩, rest, hrest⟩
        exact ⟨_, high, ha, low, hb, rest, hrest, rfl⟩
    have heven : Even (a :: b :: cs).length ↔ Even cs.length := by
      rw [List.length_cons, List.length_cons, Nat.even_add_one, Nat.even_add_one, not_not]
    rw [hpair, ih, heven, List.forall_mem_cons, List.forall_mem_cons]
    tauto

end Bytes

end ColumnIndex.Text
