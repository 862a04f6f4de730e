import ColumnIndex.Proofs.FieldPositions
import ColumnIndex.Proofs.MapperDrafts
import ColumnIndex.Proofs.Payload
import ColumnIndex.Schema.Draft

/-!
# Which drafts of schemas are built

A draft of a schema is built exactly if its default analyzer is known, its field names are
distinct, and each of its mappers makes sense for its field. The schema then has the mappers in
the order of the draft, the index of positions agrees with that order, so each mapper is found under
its own field name, and texts in terms have an analyzer.

## Main definitions

* `Schema.Draft.Valid` — the drafts that make sense.
* `Schema.Declares` — the mapper of a declared field.
* `Schema.Realizes` — what is known of the schema of a draft.

Main statement: `Schema.Draft.builds_iff_valid`.
-/
namespace ColumnIndex

open Outcome

/-! ## Resolved analyzers -/

namespace Mapper

variable (m : Mapper) (analyzer : Analyzer)

@[simp] theorem field_resolveAnalyzer : (m.resolveAnalyzer analyzer).field = m.field := by
  unfold resolveAnalyzer
  split <;> rfl

@[simp] theorem sorted_resolveAnalyzer : (m.resolveAnalyzer analyzer).sorted = m.sorted := by
  unfold resolveAnalyzer
  split <;> rfl

@[simp] theorem tag_resolveAnalyzer : (m.resolveAnalyzer analyzer).tag = m.tag := by
  unfold resolveAnalyzer
  split
  · rename_i h
    simp [tag, h, MapperKind.tag]
  · rfl

variable {m} in
theorem kind_resolveAnalyzer {own : Option Analyzer} (h : m.kind = .text own) :
    (m.resolveAnalyzer analyzer).kind = .text (some (own.getD analyzer)) := by
  cases own <;> simp [resolveAnalyzer, h]

variable {m} in
/-- Only texts in terms have an analyzer. -/
theorem tag_eq_text {own : Option Analyzer} (h : m.kind = .text own) : m.tag = .text := by
  rw [tag, h, MapperKind.tag]

theorem exists_kind_of_tag {m : Mapper} (h : m.tag = .text) : ∃ own, m.kind = .text own := by
  obtain ⟨field, column, indexed, sorted, boost, kind⟩ := m
  cases kind with
  | text own => exact ⟨own, rfl⟩
  | _ => cases h

end Mapper

namespace Schema

/-! ## What is built -/

/-- Whether a draft makes sense. -/
structure Draft.Valid (d : Draft) : Prop where
  analyzer : ∃ a : Analyzer, a.name = d.defaultAnalyzer.getD "standard"
  distinct : (d.fields.map (·.1)).Nodup
  fields : ∀ entry ∈ d.fields, entry.2.Valid entry.1

/-- The mapper of a declared field: it is built of the draft, and an analyzer that the draft does
not name is the given one. -/
structure Declares (analyzer : Analyzer) (entry : String × Mapper.Draft) (m : Mapper) : Prop where
  built : ∃ own, entry.2.build entry.1 = .ok own ∧ own.resolveAnalyzer analyzer = m
  field : m.field = entry.1
  tag : m.tag = entry.2.kind.tag
  analyzer : ∀ name, entry.2.kind = .text name →
    ∃ a : Analyzer, m.kind = .text (some a) ∧ a.name = name.getD analyzer.name

/-- What is known of the schema of a draft. -/
structure Realizes (s : Schema) (d : Draft) : Prop where
  defaultAnalyzer : s.defaultAnalyzer.name = d.defaultAnalyzer.getD "standard"
  mappers : List.Forall₂ (Declares s.defaultAnalyzer) d.fields s.mappers
  positions : ∀ field i, s.positions.lookup field = some i ↔
    ∃ m, s.mappers[i]? = some m ∧ m.field = field
  mapper? : ∀ field m, s.mapper? field = some m ↔ m ∈ s.mappers ∧ m.field = field
  declared : ∀ field, (∃ m, s.mapper? field = some m) ↔ field ∈ d.fields.map (·.1)
  analyzed : ∀ m ∈ s.mappers, m.tag = .text →
    ∃ a : Analyzer, m.kind = .text (some a) ∧ s.analyzer? m.field = some a
  analyzer? : ∀ field, (∃ a, s.analyzer? field = some a) ↔
    ∃ m, s.mapper? field = some m ∧ m.tag = .text

/-! ## Declared fields -/

/-- A mapper that is built of a draft is that of the declared field. -/
theorem declares_of_build {analyzer : Analyzer} {entry : String × Mapper.Draft} {own : Mapper}
    (h : entry.2.build entry.1 = .ok own) :
    Declares analyzer entry (own.resolveAnalyzer analyzer) where
  built := ⟨own, h, rfl⟩
  field := by rw [Mapper.field_resolveAnalyzer, Mapper.Draft.field_of_build h]
  tag := by rw [Mapper.tag_resolveAnalyzer, Mapper.Draft.tag_of_build h]
  analyzer name hname := by
    obtain ⟨-, -, -, -, kind, hkind, rfl⟩ := Mapper.Draft.build_eq_ok.1 h
    rw [hname] at hkind
    obtain ⟨a, rfl, rfl⟩ := Mapper.Draft.Kind.analyzer_of_build hkind
    refine ⟨_, Mapper.kind_resolveAnalyzer analyzer rfl, ?_⟩
    cases a <;> rfl

/-- Fields are composed exactly if their names are new and distinct and each mapper is built. -/
theorem composeFields_eq_ok {analyzer : Analyzer} {seen : List String}
    {fields : List (String × Mapper.Draft)} {ms : List Mapper} :
    composeFields analyzer seen fields = .ok ms ↔
      (fields.map (·.1)).Nodup ∧ (∀ entry ∈ fields, entry.1 ∉ seen) ∧
        List.Forall₂ (Declares analyzer) fields ms := by
  induction fields generalizing seen ms with
  | nil => simp [composeFields, eq_comm]
  | cons entry rest ih =>
    obtain ⟨field, d⟩ := entry
    simp only [composeFields, ite_error_eq_ok, bind_eq_ok, mapError_eq_ok, pure_eq_ok, ih,
      List.map_cons, List.nodup_cons, List.forall_mem_cons, List.forall₂_cons_left_iff]
    simp only [List.mem_cons, not_or]
    constructor
    · rintro ⟨hseen, m, hm, ms, ⟨hdistinct, hfresh, hms⟩, rfl⟩
      refine ⟨⟨?_, hdistinct⟩, ⟨hseen, fun e he => (hfresh e he).2⟩, _, ms,
        @declares_of_build analyzer (field, d) m hm, hms, rfl⟩
      intro hmem
      obtain ⟨e, he, hname⟩ := List.mem_map.1 hmem
      exact (hfresh e he).1 hname
    · rintro ⟨⟨hnew, hdistinct⟩, ⟨hseen, hfresh⟩, _, ms, ⟨⟨own, hown, rfl⟩, -, -, -⟩, hms, rfl⟩
      refine ⟨hseen, own, hown, ms, ⟨hdistinct, fun e he => ⟨?_, hfresh e he⟩, hms⟩, rfl⟩
      rintro rfl
      exact hnew (List.mem_map_of_mem he)

theorem compose_eq_ok {d : Draft} {s : Schema} :
    d.compose = .ok s ↔ s.defaultAnalyzer.name = d.defaultAnalyzer.getD "standard" ∧
      (d.fields.map (·.1)).Nodup ∧
        List.Forall₂ (Declares s.defaultAnalyzer) d.fields s.mappers := by
  have hdefault : Analyzer.standard.name = "standard" := rfl
  rw [← Analyzer.ofName?_eq_some, Draft.compose, hdefault]
  cases Analyzer.ofName? (d.defaultAnalyzer.getD "standard") with
  | none => simp
  | some analyzer =>
    simp only [bind_eq_ok, pure_eq_ok, composeFields_eq_ok]
    constructor
    · rintro ⟨ms, ⟨hdistinct, -, hms⟩, rfl⟩
      exact ⟨rfl, hdistinct, hms⟩
    · rintro ⟨hanalyzer, hdistinct, hms⟩
      cases hanalyzer
      exact ⟨s.mappers, ⟨hdistinct, by simp, hms⟩, s.ofMappers_eq⟩

theorem result_build_eq_ok {d : Draft} {s : Schema} :
    d.build.result = .ok s ↔ d.compose = .ok s := by
  simp only [Draft.build, Recorded.result_bind, Recorded.result_ofExcept, Recorded.result_note,
    Recorded.result_pure, ok_bind, bind_eq_ok, mapError_eq_ok, Except.ok.injEq, exists_eq_right]

variable {analyzer : Analyzer} {fields : List (String × Mapper.Draft)} {ms : List Mapper}

theorem exists_compose_iff {d : Draft} : (∃ s, d.compose = .ok s) ↔ d.Valid := by
  constructor
  · rintro ⟨s, hs⟩
    obtain ⟨hanalyzer, hdistinct, hms⟩ := compose_eq_ok.1 hs
    have hvalid : List.Forall₂ (fun e m => e.2.Valid e.1 ∧ Declares s.defaultAnalyzer e m)
        d.fields s.mappers := by
      refine hms.imp fun e m hm => ⟨?_, hm⟩
      obtain ⟨own, hown, -⟩ := hm.built
      exact Mapper.Draft.exists_build_iff.1 ⟨own, hown⟩
    exact ⟨⟨_, hanalyzer⟩, hdistinct, ((List.forall₂_and_left _ _).1 hvalid).1⟩
  · rintro ⟨⟨analyzer, hanalyzer⟩, hdistinct, hfields⟩
    have hdeclares : ∀ e ∈ d.fields, ∃ m, Declares analyzer e m ∧ True := by
      intro e he
      obtain ⟨own, hown⟩ := Mapper.Draft.exists_build_iff.2 (hfields e he)
      exact ⟨_, declares_of_build hown, trivial⟩
    obtain ⟨ms, hms, -⟩ := exists_forall₂ hdeclares
    exact ⟨.ofMappers analyzer ms, compose_eq_ok.2 ⟨hanalyzer, hdistinct, hms⟩⟩

/-! ## Fields of a built schema -/

/-- The mappers have the names of the declared fields, in order. -/
theorem names_of_declares (h : List.Forall₂ (Declares analyzer) fields ms) :
    ms.map (·.field) = fields.map (·.1) := by
  have hnames : List.Forall₂ (fun e m => e.1 = m.field) fields ms :=
    h.imp fun e m hm => hm.field.symm
  rw [← List.forall₂_eq_eq_eq, List.forall₂_map_left_iff, List.forall₂_map_right_iff]
  exact hnames.flip.imp fun m e hm => Eq.symm hm

theorem realizes_of_compose {d : Draft} {s : Schema} (h : d.compose = .ok s) : s.Realizes d := by
  obtain ⟨hanalyzer, hdistinct, hms⟩ := compose_eq_ok.1 h
  have hnames := names_of_declares hms
  have hfound {field : String} {m : Mapper} :
      s.mapper? field = some m ↔ m ∈ s.mappers ∧ m.field = field :=
    mapper?_eq_some (hnames ▸ hdistinct)
  have hanalyzed : ∀ m ∈ s.mappers, m.tag = .text →
      ∃ a : Analyzer, m.kind = .text (some a) ∧ s.analyzer? m.field = some a := by
    intro m hm htag
    obtain ⟨e, -, he⟩ := exists_of_forall₂ hms hm
    obtain ⟨own, -, rfl⟩ := he.built
    obtain ⟨analyzer, hkind⟩ := Mapper.exists_kind_of_tag (own.tag_resolveAnalyzer _ ▸ htag)
    have hresolved := Mapper.kind_resolveAnalyzer s.defaultAnalyzer hkind
    refine ⟨_, hresolved, ?_⟩
    rw [analyzer?, hfound.2 ⟨hm, rfl⟩, Option.bind_some, Mapper.analyzer?, hresolved]
    rfl
  exact {
    defaultAnalyzer := hanalyzer
    mappers := hms
    positions := fun _ _ => lookup_positions_eq_some (hnames ▸ hdistinct)
    mapper? := fun _ _ => hfound
    declared := by
      intro field
      rw [← hnames]
      constructor
      · rintro ⟨m, hm⟩
        exact List.mem_map.2 ⟨m, hfound.1 hm⟩
      · intro hfield
        obtain ⟨m, hm⟩ := List.mem_map.1 hfield
        exact ⟨m, hfound.2 hm⟩
    analyzed := hanalyzed
    analyzer? := by
      intro field
      constructor
      · rintro ⟨a, ha⟩
        rw [analyzer?, Option.bind_eq_some_iff] at ha
        obtain ⟨m, hm, ha⟩ := ha
        obtain ⟨own, hkind, -⟩ := Mapper.kind_of_analyzer? ha
        exact ⟨m, hm, Mapper.tag_eq_text hkind⟩
      · rintro ⟨m, hm, htag⟩
        obtain ⟨a, -, ha⟩ := hanalyzed m (hfound.1 hm).1 htag
        exact ⟨a, (hfound.1 hm).2 ▸ ha⟩ }

/-- A draft is built exactly if it makes sense, and then all is known of the schema. -/
theorem Draft.builds_iff_valid (d : Draft) :
    ((∃ s, d.build.result = .ok s) ↔ d.Valid) ∧ ∀ s, d.build.result = .ok s → s.Realizes d := by
  simp only [result_build_eq_ok]
  exact ⟨exists_compose_iff, fun s => realizes_of_compose⟩

end Schema

end ColumnIndex
