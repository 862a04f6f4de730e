import ColumnIndex.Mapper.Sortable
import ColumnIndex.Proofs.Number.DecimalDigits
import ColumnIndex.Proofs.Texts.DigitOrder

/-!
# Sortable texts are in the order of the numbers

All sortable texts of the same limits have their digits in the same places, so they are compared as
the digits are, with the mark of the sign in front. Read as one number, these digits count the steps
of the last place from a fixed start: the digits that a negative number takes from nine each are one
step short, which keeps it below zero and changes no order.

## Main definitions

* `Decimal.SortableForm` — the parts of a sortable text.
* `Decimal.SortableForm.rank` — the number that the mark and the digits spell.
* `Decimal.sorted?` — the number that a sortable text stands for.

## Main statements

* `Decimal.exists_sortable_iff` — which numbers have a sortable text.
* `Decimal.sorted?_of_sortable` — a sortable text stands for its number.
* `Decimal.sortable_order` — the order of the texts is the order of the numbers.
-/
namespace ColumnIndex.Decimal

/-! ## Digits taken from nine -/

section Complement

variable {c : Char} {cs : List Char}

theorem complement_of_isDigit (h : Text.isDigit c) :
    Text.isDigit (complement c) ∧ Text.digitValue (complement c) = 9 - Text.digitValue c ∧
      complement (complement c) = c := by
  simp only [Text.isDigit, Bool.and_eq_true, decide_eq_true_eq, Char.le_def,
    UInt32.le_iff_toNat_le] at h
  have hlow : 48 ≤ c.toNat := h.1
  have hhigh : c.toNat ≤ 57 := h.2
  have every : ∀ n < 58, 48 ≤ n → Text.isDigit (complement (Char.ofNat n)) ∧
      Text.digitValue (complement (Char.ofNat n)) = 9 - Text.digitValue (Char.ofNat n) ∧
        complement (complement (Char.ofNat n)) = Char.ofNat n := by
    decide
  have hc := every c.toNat (by omega) hlow
  rwa [Char.ofNat_toNat] at hc

theorem isDigit_of_mem_complement (h : ∀ c ∈ cs, Text.isDigit c) :
    ∀ c ∈ cs.map complement, Text.isDigit c := by
  intro c hc
  obtain ⟨d, hd, rfl⟩ := List.mem_map.1 hc
  exact (complement_of_isDigit (h d hd)).1

/-- Digits and what is left of them when they are taken from nine fill all places. -/
theorem numberOf_complement (h : ∀ c ∈ cs, Text.isDigit c) :
    Text.numberOf (cs.map complement) + Text.numberOf cs + 1 = 10 ^ cs.length := by
  induction cs with
  | nil => rfl
  | cons c cs ih =>
    obtain ⟨hc, hcs⟩ := List.forall_mem_cons.1 h
    have hrest := ih hcs
    have hfirst := Text.digitValue_lt hc
    have hnine : Text.digitValue (complement c) + Text.digitValue c = 9 := by
      have := (complement_of_isDigit hc).2.1
      omega
    rw [List.map_cons, Text.numberOf_cons, Text.numberOf_cons, List.length_map, List.length_cons,
      Nat.pow_succ]
    calc Text.digitValue (complement c) * 10 ^ cs.length + Text.numberOf (cs.map complement)
          + (Text.digitValue c * 10 ^ cs.length + Text.numberOf cs) + 1
        = (Text.digitValue (complement c) + Text.digitValue c) * 10 ^ cs.length
          + (Text.numberOf (cs.map complement) + Text.numberOf cs + 1) := by ring
      _ = 10 ^ cs.length * 10 := by
        rw [hnine, hrest]
        ring

end Complement

/-! ## The parts of a text -/

/-- The sign and the digits of a sortable text, before they are taken from nine. Zero has no minus
sign. -/
structure SortableForm (wholeLimit fractionLimit : Nat) where
  negative : Bool
  whole : List Char
  fraction : List Char
  isDigit_whole : ∀ c ∈ whole, Text.isDigit c
  isDigit_fraction : ∀ c ∈ fraction, Text.isDigit c
  length_whole : whole.length = wholeLimit
  length_fraction : fraction.length = fractionLimit
  ne_zero : negative → Text.numberOf (whole ++ fraction) ≠ 0

namespace SortableForm

variable {wholeLimit fractionLimit : Nat} (t u : SortableForm wholeLimit fractionLimit)

/-- The text itself. -/
def text : String := String.ofList (sortableChars t.negative t.whole t.fraction)

/-- How many steps of the last place lead from zero to the number. -/
def steps : Int :=
  if t.negative then -(Text.numberOf (t.whole ++ t.fraction)) else
    Text.numberOf (t.whole ++ t.fraction)

/-- The number that the parts denote. -/
def toRat : Rat := t.steps / 10 ^ fractionLimit

/-- The mark of the sign and the digits before the point, as they are written. -/
def before : List Char :=
  if t.negative then '0' :: t.whole.map complement else '1' :: t.whole

/-- The digits behind the point, as they are written. -/
def behind : List Char := if t.negative then t.fraction.map complement else t.fraction

/-- The number that the mark and all digits spell. -/
def rank : Nat := Text.numberOf (t.before ++ t.behind)

theorem text_eq : t.text = String.ofList (t.before ++ '.' :: t.behind) := by
  unfold text before behind sortableChars
  split <;> rfl

theorem length_before : t.before.length = wholeLimit + 1 := by
  unfold before
  split <;> simp [t.length_whole]

theorem length_behind : t.behind.length = fractionLimit := by
  unfold behind
  split <;> simp [t.length_fraction]

theorem isDigit_of_mem_before : ∀ c ∈ t.before, Text.isDigit c := by
  unfold before
  split
  · exact List.forall_mem_cons.2 ⟨rfl, isDigit_of_mem_complement t.isDigit_whole⟩
  · exact List.forall_mem_cons.2 ⟨rfl, t.isDigit_whole⟩

theorem isDigit_of_mem_behind : ∀ c ∈ t.behind, Text.isDigit c := by
  unfold behind
  split
  · exact isDigit_of_mem_complement t.isDigit_fraction
  · exact t.isDigit_fraction

theorem isVisible_of_mem : ∀ c ∈ t.before ++ '.' :: t.behind, Text.IsVisible c := by
  intro c hc
  rcases List.mem_append.1 hc with hc | hc
  · exact Text.isVisible_of_isDigit (t.isDigit_of_mem_before c hc)
  · rcases List.mem_cons.1 hc with rfl | hc
    · decide
    · exact Text.isVisible_of_isDigit (t.isDigit_of_mem_behind c hc)

/-! ## Order -/

/-- Texts of the same limits are in the order of their ranks, for their points are in one place. -/
theorem bytes_lt_iff : Text.bytes t.text < Text.bytes u.text ↔ t.rank < u.rank := by
  have hbefore := t.length_before.trans u.length_before.symm
  have hbehind := t.length_behind.trans u.length_behind.symm
  have hpoint : '.' :: t.behind < '.' :: u.behind ↔ t.behind < u.behind := by
    rw [List.cons_lt_cons_iff]
    simp
  have hlow := Text.numberOf_lt t.isDigit_of_mem_behind
  have hlow' := Text.numberOf_lt u.isDigit_of_mem_behind
  rw [hbehind] at hlow
  rw [text_eq, text_eq, Text.bytes_lt_iff t.isVisible_of_mem u.isVisible_of_mem,
    Text.append_lt_append_iff hbefore, hpoint,
    Text.digits_lt_iff hbefore t.isDigit_of_mem_before u.isDigit_of_mem_before,
    Text.digits_eq_iff hbefore t.isDigit_of_mem_before u.isDigit_of_mem_before,
    Text.digits_lt_iff hbehind t.isDigit_of_mem_behind u.isDigit_of_mem_behind, rank, rank,
    Text.numberOf_append, Text.numberOf_append, hbehind, Text.mul_add_lt_iff hlow hlow']

/-- The rank counts the steps from a fixed start, less one step below zero. -/
theorem rank_eq :
    (t.rank : Int)
      = 10 ^ (wholeLimit + fractionLimit) + t.steps - if t.steps < 0 then 1 else 0 := by
  have hlength : (t.whole ++ t.fraction).length = wholeLimit + fractionLimit := by
    rw [List.length_append, t.length_whole, t.length_fraction]
  have hdigits : ∀ c ∈ t.whole ++ t.fraction, Text.isDigit c := by
    intro c hc
    exact (List.mem_append.1 hc).elim (t.isDigit_whole c) (t.isDigit_fraction c)
  have hzero : Text.digitValue '0' = 0 := rfl
  have hone : Text.digitValue '1' = 1 := rfl
  unfold rank steps before behind
  cases hneg : t.negative with
  | true =>
    have hne := t.ne_zero hneg
    have hfill := numberOf_complement hdigits
    simp only [if_true]
    rw [List.cons_append, ← List.map_append, Text.numberOf_cons, hzero, Nat.zero_mul, Nat.zero_add,
      if_pos (by omega)]
    rw [hlength] at hfill
    have hpower : (10 : Int) ^ (wholeLimit + fractionLimit)
        = (10 ^ (wholeLimit + fractionLimit) : Nat) := by push_cast; rfl
    rw [hpower]
    omega
  | false =>
    simp only [Bool.false_eq_true, if_false]
    rw [List.cons_append, Text.numberOf_cons, hone, Nat.one_mul, hlength, if_neg (by omega)]
    push_cast
    ring

theorem toRat_lt_iff : t.toRat < u.toRat ↔ t.steps < u.steps := by
  have hpos : (0 : Rat) < 10 ^ fractionLimit := by positivity
  rw [toRat, toRat, div_lt_div_iff_of_pos_right hpos, Int.cast_lt]

/-- The bytes of two texts are in the order of the numbers. -/
theorem bytes_lt_iff_toRat : Text.bytes t.text < Text.bytes u.text ↔ t.toRat < u.toRat := by
  have hrank := t.rank_eq
  have hrank' := u.rank_eq
  rw [bytes_lt_iff, toRat_lt_iff]
  generalize (10 : Int) ^ (wholeLimit + fractionLimit) = start at hrank hrank'
  split at hrank <;> split at hrank' <;> omega

/-- Two texts have the same bytes where their numbers are the same. -/
theorem bytes_eq_iff_toRat : Text.bytes t.text = Text.bytes u.text ↔ t.toRat = u.toRat := by
  have hlt := (t.bytes_lt_iff_toRat u).not
  have hlt' := (u.bytes_lt_iff_toRat t).not
  constructor
  · intro h
    rw [h] at hlt hlt'
    exact le_antisymm (not_lt.1 (hlt'.1 (List.lt_irrefl _))) (not_lt.1 (hlt.1 (List.lt_irrefl _)))
  · intro h
    rw [h] at hlt hlt'
    exact List.le_antisymm (List.not_lt.1 (hlt'.2 (lt_irrefl _)))
      (List.not_lt.1 (hlt.2 (lt_irrefl _)))

end SortableForm

/-! ## Reading a text -/

/-- A digit is taken from nine, and a point is kept. -/
def uncomplement (c : Char) : Char := if Text.isDigit c then complement c else c

/-- The number that a sortable text stands for: a mark of the sign, then digits with a point, which
are taken from nine each behind the mark of a negative number. -/
def sorted? (s : String) : Option Rat :=
  match s.toList with
  | '1' :: cs => (DecimalText.parse? cs).map DecimalText.toRat
  | '0' :: cs => (DecimalText.parse? (cs.map uncomplement)).map fun d => -d.toRat
  | _ => none

theorem map_uncomplement {cs : List Char} (h : ∀ c ∈ cs, Text.isDigit c) :
    (cs.map complement).map uncomplement = cs := by
  rw [List.map_map]
  calc cs.map (uncomplement ∘ complement) = cs.map id := by
        apply List.map_congr_left
        intro c hc
        obtain ⟨hdigit, -, hself⟩ := complement_of_isDigit (h c hc)
        rw [Function.comp_apply, uncomplement, if_pos hdigit, hself, id]
    _ = cs := List.map_id cs

/-- A text stands for the number that its parts denote. -/
theorem SortableForm.sorted?_text {wholeLimit fractionLimit : Nat} (hwhole : 0 < wholeLimit)
    (t : SortableForm wholeLimit fractionLimit) : sorted? t.text = some t.toRat := by
  have hne : t.whole ≠ [] := by
    intro hnil
    have := t.length_whole
    rw [hnil, List.length_nil] at this
    omega
  have hread := DecimalText.parse?_point hne t.isDigit_whole t.isDigit_fraction
  have hvalue : (⟨t.whole ++ t.fraction, -t.fraction.length⟩ : DecimalText).toRat
      = Text.numberOf (t.whole ++ t.fraction) / 10 ^ fractionLimit := by
    rw [DecimalText.toRat, zpow_neg, zpow_natCast, t.length_fraction]
    rfl
  rw [sorted?, text, String.toList_ofList, sortableChars]
  cases hneg : t.negative with
  | true =>
    have hkept : (t.whole.map complement ++ '.' :: t.fraction.map complement).map uncomplement
        = t.whole ++ '.' :: t.fraction := by
      rw [List.map_append, List.map_cons, map_uncomplement t.isDigit_whole,
        map_uncomplement t.isDigit_fraction]
      rfl
    simp only [if_true, List.cons_append, hkept, hread, Option.map_some, hvalue]
    rw [toRat, steps, if_pos hneg, Int.cast_neg, neg_div]
    rfl
  | false =>
    simp only [Bool.false_eq_true, if_false, List.cons_append, hread, Option.map_some, hvalue]
    rw [toRat, steps, hneg, if_neg Bool.false_ne_true]
    rfl

/-! ## The text of a number -/

section Padding

variable {width : Nat} {cs : List Char}

theorem length_padLeft (h : cs.length ≤ width) : (Text.padLeft width '0' cs).length = width := by
  rw [Text.padLeft, List.length_append, List.length_replicate]
  omega

theorem length_padRight (h : cs.length ≤ width) : (Text.padRight width '0' cs).length = width := by
  rw [Text.padRight, List.length_append, List.length_replicate]
  omega

theorem isDigit_of_mem_padLeft (h : ∀ c ∈ cs, Text.isDigit c) :
    ∀ c ∈ Text.padLeft width '0' cs, Text.isDigit c := by
  intro c hc
  rcases List.mem_append.1 hc with hc | hc
  · rw [List.eq_of_mem_replicate hc]
    rfl
  · exact h c hc

theorem isDigit_of_mem_padRight (h : ∀ c ∈ cs, Text.isDigit c) :
    ∀ c ∈ Text.padRight width '0' cs, Text.isDigit c := by
  intro c hc
  rcases List.mem_append.1 hc with hc | hc
  · exact h c hc
  · rw [List.eq_of_mem_replicate hc]
    rfl

/-- Zeros in front count nothing, and those behind count places. -/
theorem numberOf_padded (width width' : Nat) (whole fraction : List Char) :
    Text.numberOf (Text.padLeft width '0' whole ++ Text.padRight width' '0' fraction)
      = Text.numberOf (whole ++ fraction) * 10 ^ (width' - fraction.length) := by
  rw [Text.padLeft, Text.padRight, List.append_assoc, ← List.append_assoc whole,
    Text.numberOf_append, Text.numberOf_replicate_zero, Nat.zero_mul, Nat.zero_add,
    Text.numberOf_append, Text.numberOf_replicate_zero, List.length_replicate, Nat.add_zero]

end Padding

section Sortable

variable {wholeLimit fractionLimit : Nat} {d : Decimal} {s : String}

/-- The digits of a number, padded to the limits. -/
theorem numberOf_padded_digits (d : Decimal) (wholeLimit fractionLimit : Nat) :
    Text.numberOf (Text.padLeft wholeLimit '0' d.wholeDigits
        ++ Text.padRight fractionLimit '0' d.fractionDigits)
      = d.coefficient * 10 ^ (fractionLimit - d.scale) := by
  rw [numberOf_padded, numberOf_digits, length_fractionDigits]

/-- The parts of a number that fits the limits. -/
def form (d : Decimal) (hsign : d.negative → d.coefficient ≠ 0)
    (hwhole : d.wholeDigits.length ≤ wholeLimit)
    (hfraction : d.fractionDigits.length ≤ fractionLimit) :
    SortableForm wholeLimit fractionLimit where
  negative := d.negative
  whole := Text.padLeft wholeLimit '0' d.wholeDigits
  fraction := Text.padRight fractionLimit '0' d.fractionDigits
  isDigit_whole := isDigit_of_mem_padLeft fun _ => isDigit_of_mem_wholeDigits
  isDigit_fraction := isDigit_of_mem_padRight fun _ => isDigit_of_mem_fractionDigits
  length_whole := length_padLeft hwhole
  length_fraction := length_padRight hfraction
  ne_zero hneg := by
    rw [numberOf_padded_digits]
    exact Nat.mul_ne_zero (hsign hneg) (pow_ne_zero _ (by norm_num))

theorem toRat_form (hsign : d.negative → d.coefficient ≠ 0)
    (hwhole : d.wholeDigits.length ≤ wholeLimit)
    (hfraction : d.fractionDigits.length ≤ fractionLimit) :
    (d.form hsign hwhole hfraction).toRat = d.toRat := by
  have hscale : d.scale ≤ fractionLimit := d.length_fractionDigits ▸ hfraction
  have hpower : (10 : Rat) ^ fractionLimit = 10 ^ d.scale * 10 ^ (fractionLimit - d.scale) := by
    rw [← pow_add, Nat.add_sub_cancel' hscale]
  have hpos : (10 : Rat) ^ (fractionLimit - d.scale) ≠ 0 := by positivity
  have hsteps : ((d.form hsign hwhole hfraction).steps : Rat)
      = (if d.negative then -(d.coefficient : Int) else (d.coefficient : Int))
        * 10 ^ (fractionLimit - d.scale) := by
    rw [SortableForm.steps, form]
    dsimp only
    rw [numberOf_padded_digits]
    split
    · push_cast
      ring
    · push_cast
      ring
  rw [SortableForm.toRat, hsteps, hpower, mul_div_mul_right _ _ hpos, toRat]

/-- The text of a number has the parts of its normal form, if these fit. -/
theorem sortable_eq_ok : d.sortable wholeLimit fractionLimit = .ok s ↔
    ∃ (hwhole : d.normalize.wholeDigits.length ≤ wholeLimit)
      (hfraction : d.normalize.fractionDigits.length ≤ fractionLimit),
      (d.normalize.form coefficient_normalize_ne hwhole hfraction).text = s := by
  unfold sortable
  dsimp only
  by_cases hwhole : d.normalize.wholeDigits.length ≤ wholeLimit
  · rw [if_neg (not_lt.2 hwhole)]
    by_cases hfraction : d.normalize.fractionDigits.length ≤ fractionLimit
    · rw [if_neg (not_lt.2 hfraction), Except.ok.injEq]
      exact ⟨fun h => ⟨hwhole, hfraction, h⟩, fun ⟨_, _, h⟩ => h⟩
    · rw [if_pos (not_le.1 hfraction)]
      exact iff_of_false nofun fun ⟨_, h, _⟩ => hfraction h
  · rw [if_pos (not_le.1 hwhole)]
    exact iff_of_false nofun fun ⟨h, _⟩ => hwhole h

/-- The texts of a number are those with parts that denote it. -/
theorem exists_form_of_sortable (h : d.sortable wholeLimit fractionLimit = .ok s) :
    ∃ t : SortableForm wholeLimit fractionLimit, t.text = s ∧ t.toRat = d.toRat := by
  obtain ⟨hwhole, hfraction, htext⟩ := sortable_eq_ok.1 h
  exact ⟨_, htext, (toRat_form _ hwhole hfraction).trans d.toRat_normalize⟩

/-- Numbers that are the same have the same text. -/
theorem sortable_congr {d' : Decimal} (h : d.toRat = d'.toRat) :
    d.sortable wholeLimit fractionLimit = d'.sortable wholeLimit fractionLimit := by
  rw [sortable, sortable, normalize_eq_of_toRat h]

/-- A text stands for its number. -/
theorem sorted?_of_sortable (h : d.sortable wholeLimit fractionLimit = .ok s) :
    sorted? s = some d.toRat := by
  have hwhole := (sortable_eq_ok.1 h).1
  have hpos := List.length_pos_of_ne_nil (wholeDigits_ne_nil d.normalize)
  obtain ⟨t, rfl, htext⟩ := exists_form_of_sortable h
  rw [t.sorted?_text (by omega), htext]

/-- A number is refused for the digits that it has too many, first for those before the point. -/
theorem sortable_eq_error_iff {whole fraction : Nat} (h : HasDigits d.toRat whole fraction)
    (fault : DigitFault) :
    d.sortable wholeLimit fractionLimit = .error fault ↔
      (wholeLimit < whole ∧ fault = .whole whole wholeLimit) ∨
        (whole ≤ wholeLimit ∧ fractionLimit < fraction ∧
          fault = .fraction fraction fractionLimit) := by
  have hdigits := d.hasDigits_normalize
  rw [h.whole.unique hdigits.whole, h.fraction.unique hdigits.fraction]
  unfold sortable
  dsimp only
  by_cases hwhole : wholeLimit < d.normalize.wholeDigits.length
  · rw [if_pos hwhole, Except.error.injEq, eq_comm]
    exact ⟨fun heq => .inl ⟨hwhole, heq⟩, fun h => h.elim And.right fun h => by omega⟩
  · rw [if_neg hwhole]
    by_cases hfraction : fractionLimit < d.normalize.fractionDigits.length
    · rw [if_pos hfraction, Except.error.injEq, eq_comm]
      exact ⟨fun heq => .inr ⟨by omega, hfraction, heq⟩,
        fun h => h.elim (fun h => by omega) fun h => h.2.2⟩
    · rw [if_neg hfraction]
      exact iff_of_false nofun (by omega)

/-- A number has a text if it has no more digits than the limits say. -/
theorem exists_sortable_iff {whole fraction : Nat} (h : HasDigits d.toRat whole fraction) :
    (∃ s, d.sortable wholeLimit fractionLimit = .ok s) ↔
      whole ≤ wholeLimit ∧ fraction ≤ fractionLimit := by
  have hdigits := d.hasDigits_normalize
  rw [h.whole.unique hdigits.whole, h.fraction.unique hdigits.fraction]
  constructor
  · rintro ⟨s, hs⟩
    obtain ⟨hwhole, hfraction, -⟩ := sortable_eq_ok.1 hs
    exact ⟨hwhole, hfraction⟩
  · rintro ⟨hwhole, hfraction⟩
    exact ⟨_, sortable_eq_ok.2 ⟨hwhole, hfraction, rfl⟩⟩

/-- Two texts of the same limits are in the order of their numbers, byte by byte, and are the same
where the numbers are. A number is refused if it has more digits than a limit says, and only
then. -/
theorem sortable_order (wholeLimit fractionLimit : Nat) (d d' : Decimal) :
    (∀ s s', d.sortable wholeLimit fractionLimit = .ok s →
      d'.sortable wholeLimit fractionLimit = .ok s' →
        (Text.bytes s < Text.bytes s' ↔ d.toRat < d'.toRat) ∧
          (Text.bytes s = Text.bytes s' ↔ d.toRat = d'.toRat)) ∧
      ∃ whole fraction, HasDigits d.toRat whole fraction ∧
        ∀ fault, d.sortable wholeLimit fractionLimit = .error fault ↔
          (wholeLimit < whole ∧ fault = .whole whole wholeLimit) ∨
            (whole ≤ wholeLimit ∧ fractionLimit < fraction ∧
              fault = .fraction fraction fractionLimit) := by
  refine ⟨?_, _, _, d.hasDigits_normalize, sortable_eq_error_iff d.hasDigits_normalize⟩
  intro s s' h h'
  obtain ⟨t, rfl, hvalue⟩ := exists_form_of_sortable h
  obtain ⟨u, rfl, hvalue'⟩ := exists_form_of_sortable h'
  rw [← hvalue, ← hvalue']
  exact ⟨t.bytes_lt_iff_toRat u, t.bytes_eq_iff_toRat u⟩

/-- A loss with zeros at its end. -/
def sampleLoss : Decimal := ⟨true, 12500, 3, by decide, by decide⟩

/-- A smaller loss. -/
def sampleCent : Decimal := ⟨true, 10, 3, by decide, by decide⟩

/-- The greater loss comes first. -/
theorem sortable_order_losses :
    sampleLoss.sortable 4 3 = .ok "09987.499" ∧ sampleCent.sortable 4 3 = .ok "09999.989" ∧
      Text.bytes "09987.499" < Text.bytes "09999.989" := by
  have hloss : sampleLoss.sortable 4 3 = .ok "09987.499" := rfl
  have hcent : sampleCent.sortable 4 3 = .ok "09999.989" := rfl
  have hvalue : sampleLoss.toRat < sampleCent.toRat := by decide +kernel
  exact ⟨hloss, hcent, ((sortable_order 4 3 sampleLoss sampleCent).1 _ _ hloss hcent).1.2 hvalue⟩

end Sortable

end ColumnIndex.Decimal
