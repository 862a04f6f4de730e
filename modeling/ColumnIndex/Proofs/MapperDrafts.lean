import ColumnIndex.Proofs.DraftOptions
import ColumnIndex.Proofs.Outcome

/-!
# Which drafts of mappers are built

A draft of a mapper is built for a field exactly if its options make sense for its kind. The
mapper has the options of the draft, with defaults for those that are not set.

## Main definitions

* `Mapper.Draft.Kind.Valid`, `Mapper.Draft.Valid` — the drafts that make sense.

Main statements: `Mapper.Draft.build_eq_ok`, `Mapper.Draft.exists_build_iff`.
-/
namespace ColumnIndex

open Outcome

theorem Analyzer.ofName?_eq_some {name : String} {a : Analyzer} :
    Analyzer.ofName? name = some a ↔ a.name = name := by
  constructor
  · intro h
    simpa using List.find?_some h
  · rintro rfl
    exact Analyzer.ofName?_name a

namespace Mapper

/-! ## Options that make sense -/

/-- A limit of digits is at least one and at most a thousand. -/
def IsDigitLimit (n : UInt32) : Prop := 1 ≤ n.toNat ∧ n.toNat ≤ 1000

/-- Whether the options of a kind make sense. Limits are thirty-two digits and eleven levels if
they are not set, and columns of coordinates have no default. -/
def Draft.Kind.Valid : Draft.Kind → Prop
  | bigDecimal whole fraction => IsDigitLimit (whole.getD 32) ∧ IsDigitLimit (fraction.getD 32)
  | text analyzer => ∀ name ∈ analyzer, ∃ a : Analyzer, a.name = name
  | date pattern => ∃ items, Pattern.parse (pattern.getD defaultPattern) = .ok items
  | geoPoint latitude longitude levels =>
    Text.HasContent (latitude.getD "") ∧ Text.HasContent (longitude.getD "") ∧
      1 ≤ (levels.getD 11).toNat ∧ (levels.getD 11).toNat ≤ 12
  | _ => True

/-- Whether a draft makes sense for a field. -/
structure Draft.Valid (d : Draft) (field : String) : Prop where
  name : Text.HasContent field
  column : Text.HasContent (d.column.getD field)
  boost : ∀ x ∈ d.boost, x.IsPositive
  sorted : d.sorted = some true → d.kind.tag.sort? ≠ none
  kind : d.kind.Valid

/-! ## Kinds -/

theorem digitLimit_eq_ok {name : String} {digits : Option UInt32} {n : UInt32} :
    digitLimit name digits = .ok n ↔ IsDigitLimit (digits.getD 32) ∧ digits.getD 32 = n :=
  ite_ok_eq_ok

namespace Draft.Kind

variable {k : Draft.Kind} {kind : MapperKind}

theorem exists_build_iff : (∃ kind, k.build = .ok kind) ↔ k.Valid := by
  cases k with
  | bigDecimal whole fraction =>
    simp only [build, exists_bind_eq_ok, digitLimit_eq_ok, Valid]
    constructor
    · rintro ⟨_, ⟨hwhole, -⟩, _, ⟨hfraction, -⟩, -⟩
      exact ⟨hwhole, hfraction⟩
    · rintro ⟨hwhole, hfraction⟩
      exact ⟨_, ⟨hwhole, rfl⟩, _, ⟨hfraction, rfl⟩, _, rfl⟩
  | text analyzer =>
    cases analyzer with
    | none => simp [build, Valid]
    | some name =>
      simp only [build, Valid, Option.mem_some_iff, forall_eq', ← Analyzer.ofName?_eq_some]
      cases Analyzer.ofName? name with
      | none => simp
      | some a => simp
  | date pattern =>
    simp only [build, Valid]
    cases Pattern.parse (pattern.getD defaultPattern) with
    | ok items => simp
    | error fault => simp
  | geoPoint latitude longitude levels =>
    simp only [build, ite_error_eq_ok, ite_ok_eq_ok, Valid, ← Text.isBlankText_eq_false_iff,
      Bool.not_eq_true, exists_and_left, exists_eq', and_true]
    rfl
  | _ => simp [build, Valid]

/-- What is built has the kind of the draft. -/
theorem tag_of_build (h : k.build = .ok kind) : kind.tag = k.tag := by
  cases k with
  | bigDecimal whole fraction =>
    simp only [build, bind_eq_ok, pure_eq_ok] at h
    obtain ⟨_, -, _, -, rfl⟩ := h
    rfl
  | text analyzer =>
    cases analyzer with
    | none =>
      cases h
      rfl
    | some name =>
      simp only [build] at h
      split at h <;> cases h
      rfl
  | date pattern =>
    simp only [build] at h
    split at h <;> cases h
    rfl
  | geoPoint latitude longitude levels =>
    simp only [build, ite_error_eq_ok, ite_ok_eq_ok] at h
    obtain ⟨-, -, -, rfl⟩ := h
    rfl
  | _ =>
    cases h
    rfl

/-- A mapper of texts in terms has the analyzer that its draft names. -/
theorem analyzer_of_build {name : Option String} (h : (text name).build = .ok kind) :
    ∃ own : Option Analyzer, kind = .text own ∧ own.map Analyzer.name = name := by
  cases name with
  | none =>
    cases h
    exact ⟨none, rfl, rfl⟩
  | some name =>
    simp only [build] at h
    split at h
    · rename_i a ha
      cases h
      exact ⟨some a, rfl, congrArg some (Analyzer.ofName?_eq_some.1 ha)⟩
    · cases h

end Draft.Kind

/-! ## Mappers -/

namespace Draft

variable {d : Draft} {field : String} {m : Mapper}

/-- What it takes to be built, and what is built. -/
theorem build_eq_ok : d.build field = .ok m ↔
    Text.HasContent field ∧ Text.HasContent (d.column.getD field) ∧ (∀ x ∈ d.boost, x.IsPositive) ∧
      (d.sorted = some true → d.kind.tag.sort? ≠ none) ∧ ∃ kind, d.kind.build = .ok kind ∧
        ⟨field, d.column.getD field, d.indexed.getD true, d.sorted.getD false,
          d.boost.getD defaultBoost, kind⟩ = m := by
  have hsorted : ¬(d.sorted.getD false && !d.kind.tag.supportsSorting) = true ↔
      (d.sorted = some true → d.kind.tag.sort? ≠ none) := by
    rw [MapperTag.supportsSorting]
    cases d.sorted <;> cases d.kind.tag.sort? <;> simp
  simp only [build, buildOptions, ite_error_eq_ok, mapError_eq_ok, bind_eq_ok, pure_eq_ok,
    ← Text.isBlankText_eq_false_iff, ← isBoost_getD_iff, ← hsorted, Bool.not_eq_true,
    Bool.not_eq_false']

theorem exists_build_iff : (∃ m, d.build field = .ok m) ↔ d.Valid field := by
  simp only [build_eq_ok]
  constructor
  · rintro ⟨m, hfield, hcolumn, hboost, hsorted, kind, hkind, -⟩
    exact ⟨hfield, hcolumn, hboost, hsorted, Kind.exists_build_iff.1 ⟨kind, hkind⟩⟩
  · intro h
    obtain ⟨kind, hkind⟩ := Kind.exists_build_iff.2 h.kind
    exact ⟨_, h.name, h.column, h.boost, h.sorted, kind, hkind, rfl⟩

theorem field_of_build (h : d.build field = .ok m) : m.field = field := by
  obtain ⟨-, -, -, -, kind, -, rfl⟩ := build_eq_ok.1 h
  rfl

theorem tag_of_build (h : d.build field = .ok m) : m.tag = d.kind.tag := by
  obtain ⟨-, -, -, -, kind, hkind, rfl⟩ := build_eq_ok.1 h
  exact Kind.tag_of_build hkind

/-- A built mapper sorts only if the engine can sort by its kind. -/
theorem sort?_of_build (h : d.build field = .ok m) (hm : m.sorted) : m.tag.sort? ≠ none := by
  rw [tag_of_build h]
  obtain ⟨-, -, -, hsorted, kind, -, rfl⟩ := build_eq_ok.1 h
  exact hsorted (by simpa [Option.getD_eq_iff] using hm)

end Draft

end Mapper

end ColumnIndex
