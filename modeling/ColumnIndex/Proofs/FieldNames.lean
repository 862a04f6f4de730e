import ColumnIndex.Proofs.FieldTypes

/-!
# Names of fields

Fields to search in have the name of their mapper, and fields to sort by have that name with a
suffix. Only the declared names are kept distinct, so a mapper may be declared under the name that
another one sorts by. Fields of one role never share a name otherwise than by their mapper, and
fields of both roles do only if a mapper is declared so.

## Main definitions

* `Mapper.Produces` — the fields that a mapper makes of a row.
* `Mapper.SortsUnder` — whether a mapper sorts under a name.
* `Schema.Separates` — what is known of the names in a document.

Main statement: `Schema.separates_of_document`.
-/
namespace ColumnIndex

open Outcome

theorem sortName_injective {field other : String} (h : sortName field = sortName other) :
    field = other :=
  String.append_left_inj ".sort" |>.1 h

theorem sortName_ne_self (field : String) : sortName field ≠ field := by
  intro h
  have hlength := congrArg String.length h
  rw [sortName, String.length_append] at hlength
  have hsuffix : ".sort".length = 5 := rfl
  omega

namespace Mapper

variable {m other : Mapper} {row : Columns} {f : Field}

/-- The mapper has fields to sort by, and this is their name. -/
def SortsUnder (m : Mapper) (name : String) : Prop := m.sorted ∧ sortName m.field = name

/-- The field is one of those that the mapper makes of the row. -/
def Produces (m : Mapper) (row : Columns) (f : Field) : Prop :=
  ∃ fields, (m.fields row).result = .ok fields ∧ f ∈ fields

/-- The name of a field follows from its role, and what is not sorted by has no fields to sort
by. -/
theorem Produces.name (hsort : m.sorted → m.tag.sort? ≠ none) (h : m.Produces row f) :
    f.name = m.nameFor f.sorts ∧ (f.sorts → m.sorted) := by
  obtain ⟨fields, hfields, hf⟩ := h
  exact name_of_fields hsort hfields hf

/-- The names of a role differ as the names of the mappers do. -/
theorem field_eq_of_nameFor {sorting : Bool} (h : m.nameFor sorting = other.nameFor sorting) :
    m.field = other.field := by
  cases sorting with
  | false => exact h
  | true => exact sortName_injective h

/-- A name of both roles is one that a mapper sorts under and the other is declared as. -/
theorem sortsUnder_of_nameFor {sorting sortingOther : Bool} (hne : sorting ≠ sortingOther)
    (hm : sorting → m.sorted) (hother : sortingOther → other.sorted)
    (h : m.nameFor sorting = other.nameFor sortingOther) :
    m.SortsUnder other.field ∨ other.SortsUnder m.field := by
  cases sorting with
  | false =>
    cases sortingOther with
    | false => exact absurd rfl hne
    | true => exact .inr ⟨hother rfl, h.symm⟩
  | true =>
    cases sortingOther with
    | false => exact .inl ⟨hm rfl, h⟩
    | true => exact absurd rfl hne

/-- The two names of a mapper differ. -/
theorem nameFor_eq_iff {sorting other : Bool} :
    m.nameFor sorting = m.nameFor other ↔ sorting = other := by
  have hne := sortName_ne_self m.field
  cases sorting <;> cases other <;> simp [nameFor, hne, hne.symm]

end Mapper

/-! ## Documents -/

namespace Schema

variable {s : Schema} {row : Columns} {ms : List Mapper} {m : Mapper} {fields own : List Field}
  {f : Field}

/-- What is known of the names in the document of a row. -/
structure Separates (s : Schema) (row : Columns) (doc : Document) : Prop where
  made : ∀ m ∈ s.mappers, ∃ fields, (m.fields row).result = .ok fields
  produced : ∀ f, f ∈ doc.fields ↔ ∃ m ∈ s.mappers, m.Produces row f
  /-- Fields of one name and one role have one mapper. Fields of one name and both roles have two
  only if one of these sorts under the name of the other. -/
  shared : ∀ m ∈ s.mappers, ∀ other ∈ s.mappers, ∀ f g, m.Produces row f → other.Produces row g →
    f.name = g.name →
      m = other ∨ f.sorts ≠ g.sorts ∧ (m.SortsUnder other.field ∨ other.SortsUnder m.field)
  /-- What is found under a name and has the role of the name is of the mapper. -/
  found : ∀ m ∈ s.mappers, ∀ fields, (m.fields row).result = .ok fields → ∀ sorting,
    (doc.named (m.nameFor sorting)).filter (·.sorts == sorting) =
      fields.filter (·.sorts == sorting)
  /-- So is all that is found under a name, if no mapper sorts under the name of another one. -/
  apart : (∀ m ∈ s.mappers, ∀ other ∈ s.mappers, ¬m.SortsUnder other.field) →
    ∀ m ∈ s.mappers, ∀ fields, (m.fields row).result = .ok fields →
      ∀ sorting : Bool, (sorting → m.sorted) →
        doc.named (m.nameFor sorting) = fields.filter (·.sorts == sorting)

theorem fieldsOf_cons_eq_ok : (fieldsOf row (m :: ms)).result = .ok fields ↔
    ∃ own, (m.fields row).result = .ok own ∧
      ∃ rest, (fieldsOf row ms).result = .ok rest ∧ own ++ rest = fields := by
  simp only [fieldsOf, Recorded.result_bind, Recorded.result_pure, bind_eq_ok, Except.ok.injEq]

/-- All mappers succeed if they do so together. -/
theorem exists_fields_of_fieldsOf (h : (fieldsOf row ms).result = .ok fields) :
    ∀ m ∈ ms, ∃ own, (m.fields row).result = .ok own := by
  induction ms generalizing fields with
  | nil => simp
  | cons m ms ih =>
    obtain ⟨own, hown, rest, hrest, -⟩ := fieldsOf_cons_eq_ok.1 h
    exact List.forall_mem_cons.2 ⟨⟨own, hown⟩, ih hrest⟩

theorem mem_fieldsOf (h : (fieldsOf row ms).result = .ok fields) :
    f ∈ fields ↔ ∃ m ∈ ms, m.Produces row f := by
  induction ms generalizing fields with
  | nil =>
    cases h
    simp
  | cons m ms ih =>
    obtain ⟨own, hown, rest, hrest, rfl⟩ := fieldsOf_cons_eq_ok.1 h
    have hm : f ∈ own ↔ m.Produces row f := by
      simp [Mapper.Produces, hown]
    rw [List.mem_append, ih hrest, hm, List.exists_mem_cons_iff]

/-- A test that is passed by fields of one mapper alone leaves the fields of that mapper. -/
theorem filter_fieldsOf {p : Field → Bool} (hms : ms.Nodup)
    (h : (fieldsOf row ms).result = .ok fields) (hm : m ∈ ms)
    (hown : (m.fields row).result = .ok own)
    (hothers : ∀ other ∈ ms, other ≠ m → ∀ f, other.Produces row f → p f = false) :
    fields.filter p = own.filter p := by
  induction ms generalizing fields with
  | nil => cases hm
  | cons first ms ih =>
    obtain ⟨part, hpart, rest, hrest, rfl⟩ := fieldsOf_cons_eq_ok.1 h
    rw [List.nodup_cons] at hms
    rw [List.forall_mem_cons] at hothers
    rw [List.filter_append]
    by_cases hfirst : first = m
    · subst hfirst
      have hnone : rest.filter p = [] := by
        rw [List.filter_eq_nil_iff]
        intro f hf
        obtain ⟨other, hother, hproduces⟩ := (mem_fieldsOf hrest).1 hf
        have hne : other ≠ first := fun heq => hms.1 (heq ▸ hother)
        rw [hothers.2 other hother hne f hproduces]
        exact Bool.false_ne_true
      rw [hnone, List.append_nil, Except.ok.inj (hpart.symm.trans hown)]
    · have hnone : part.filter p = [] := by
        rw [List.filter_eq_nil_iff]
        intro f hf
        rw [hothers.1 hfirst f ⟨part, hpart, hf⟩]
        exact Bool.false_ne_true
      have hrestOwn := (List.mem_cons.1 hm).resolve_left (Ne.symm hfirst)
      rw [hnone, List.nil_append, ih hms.2 hrest hrestOwn hothers.2]

/-! ## Distinct names -/

section Names

variable {other : Mapper} {g : Field} {sorting : Bool} (hnames : (ms.map (·.field)).Nodup)
  (hsort : ∀ m ∈ ms, m.sorted → m.tag.sort? ≠ none)

include hnames

theorem eq_of_nameFor (hm : m ∈ ms) (hother : other ∈ ms)
    (h : m.nameFor sorting = other.nameFor sorting) : m = other :=
  List.inj_on_of_nodup_map hnames hm hother (Mapper.field_eq_of_nameFor h)

include hsort

/-- Fields of one name have one mapper, or they have both roles and one mapper sorts under the name
of the other. -/
theorem eq_or_sortsUnder (hm : m ∈ ms) (hother : other ∈ ms) (hf : m.Produces row f)
    (hg : other.Produces row g) (h : f.name = g.name) :
    m = other ∨ f.sorts ≠ g.sorts ∧ (m.SortsUnder other.field ∨ other.SortsUnder m.field) := by
  obtain ⟨hnamef, hsortedf⟩ := hf.name (hsort m hm)
  obtain ⟨hnameg, hsortedg⟩ := hg.name (hsort other hother)
  rw [hnamef, hnameg] at h
  by_cases hroles : f.sorts = g.sorts
  · rw [hroles] at h
    exact .inl (eq_of_nameFor hnames hm hother h)
  · exact .inr ⟨hroles, Mapper.sortsUnder_of_nameFor hroles hsortedf hsortedg h⟩

/-- Of all fields those of a role under its name are those that the mapper has of the role. -/
theorem filter_role (h : (fieldsOf row ms).result = .ok fields) (hm : m ∈ ms)
    (hown : (m.fields row).result = .ok own) :
    fields.filter (fun f => f.sorts == sorting && f.name == m.nameFor sorting) =
      own.filter (·.sorts == sorting) := by
  have hothers : ∀ other ∈ ms, other ≠ m → ∀ f, other.Produces row f →
      (f.sorts == sorting && f.name == m.nameFor sorting) = false := by
    intro other hother hne f hf
    rw [Bool.and_eq_false_imp, beq_iff_eq, beq_eq_false_iff_ne]
    intro hrole hname
    rw [(hf.name (hsort other hother)).1, hrole] at hname
    exact hne (eq_of_nameFor hnames hother hm hname)
  rw [filter_fieldsOf (List.Nodup.of_map _ hnames) h hm hown hothers]
  refine List.filter_congr fun f hf => ?_
  have hname := (Mapper.Produces.name (hsort m hm) ⟨own, hown, hf⟩).1
  by_cases hrole : f.sorts = sorting
  · simp [hname, hrole]
  · simp [hrole]

/-- If no mapper sorts under the name of another one, the role need not be asked for. -/
theorem filter_name (happart : ∀ m ∈ ms, ∀ other ∈ ms, ¬m.SortsUnder other.field)
    (h : (fieldsOf row ms).result = .ok fields) (hm : m ∈ ms)
    (hown : (m.fields row).result = .ok own) (hsorted : sorting → m.sorted) :
    fields.filter (·.name == m.nameFor sorting) = own.filter (·.sorts == sorting) := by
  have hothers : ∀ other ∈ ms, other ≠ m → ∀ f, other.Produces row f →
      (f.name == m.nameFor sorting) = false := by
    intro other hother hne f hf
    obtain ⟨hnamef, hsortedf⟩ := hf.name (hsort other hother)
    rw [beq_eq_false_iff_ne, hnamef]
    intro hname
    by_cases hrole : f.sorts = sorting
    · rw [hrole] at hname
      exact hne (eq_of_nameFor hnames hother hm hname)
    · rcases Mapper.sortsUnder_of_nameFor hrole hsortedf hsorted hname with hunder | hunder
      · exact happart other hother m hm hunder
      · exact happart m hm other hother hunder
  rw [filter_fieldsOf (List.Nodup.of_map _ hnames) h hm hown hothers]
  refine List.filter_congr fun f hf => ?_
  have hname := (Mapper.Produces.name (hsort m hm) ⟨own, hown, hf⟩).1
  rw [hname, Bool.eq_iff_iff, beq_iff_eq, beq_iff_eq, Mapper.nameFor_eq_iff]

end Names

/-! ## Built schemas -/

/-- In a built schema no two mappers are declared under one name. -/
theorem nodup_fields_of_build {d : Draft} (h : d.build.result = .ok s) :
    (s.mappers.map (·.field)).Nodup := by
  obtain ⟨-, hdistinct, hms⟩ := compose_eq_ok.1 (result_build_eq_ok.1 h)
  rw [names_of_declares hms]
  exact hdistinct

theorem sort?_of_mem {d : Draft} (h : d.build.result = .ok s) (hm : m ∈ s.mappers) :
    m.sorted → m.tag.sort? ≠ none :=
  sort?_of_build h ((mapper?_eq_some (nodup_fields_of_build h)).2 ⟨hm, rfl⟩)

theorem result_document_eq_ok {doc : Document} :
    (s.document row).result = .ok doc ↔ (fieldsOf row s.mappers).result = .ok doc.fields := by
  simp only [document, Recorded.result_bind, Recorded.result_pure, bind_eq_ok, Except.ok.injEq]
  constructor
  · rintro ⟨fields, hfields, rfl⟩
    exact hfields
  · intro hfields
    exact ⟨_, hfields, rfl⟩

/-- In the document of a row no name stands for two mappers, unless one of them is declared under
the name that the other one sorts by. -/
theorem separates_of_document {d : Draft} {doc : Document} (hd : d.build.result = .ok s)
    (h : (s.document row).result = .ok doc) : s.Separates row doc := by
  have hfields := result_document_eq_ok.1 h
  have hnames := nodup_fields_of_build hd
  have hsort (m : Mapper) (hm : m ∈ s.mappers) : m.sorted → m.tag.sort? ≠ none :=
    sort?_of_mem hd hm
  refine ⟨exists_fields_of_fieldsOf hfields, fun f => mem_fieldsOf hfields, ?_, ?_, ?_⟩
  · intro m hm other hother f g hf hg hname
    exact eq_or_sortsUnder hnames hsort hm hother hf hg hname
  · intro m hm own hown sorting
    rw [Document.named, List.filter_filter]
    exact filter_role hnames hsort hfields hm hown
  · intro happart m hm own hown sorting hsorted
    exact filter_name hnames hsort happart hfields hm hown hsorted

/-- A draft of ages, which are sorted by, and of ranks under the name that ages are sorted by. -/
def sampleAges : Draft where
  fields := [("age", { sorted := some true, kind := .integer }), ("age.sort", { kind := .integer })]

/-- The mapper of ages. -/
def sampleAge : Mapper := ⟨"age", "age", true, true, defaultBoost, .integer⟩

/-- The mapper of ranks. -/
def sampleRank : Mapper := ⟨"age.sort", "age.sort", true, false, defaultBoost, .integer⟩

/-- The schema of the draft. -/
def sampleAged : Schema := .ofMappers .standard [sampleAge, sampleRank]

/-- A row with an age and a rank. -/
def sampleAgeRow : Columns := .ofList [("age", .int 30), ("age.sort", .int 7)]

/-- The fields of the row. -/
def sampleAgeDocument : Document where
  fields :=
    [.docValues "age.sort" (.int 30) .numeric, .indexed "age" (.int 30) .intPoint (.ofInt 1),
      .indexed "age.sort" (.int 7) .intPoint (.ofInt 1)]

/-- What is sorted by is told from what is searched in, even under the shared name. -/
theorem separates_of_document_ages : sampleAges.build.result = .ok sampleAged ∧
    (sampleAged.document sampleAgeRow).result = .ok sampleAgeDocument ∧
      sampleAged.Separates sampleAgeRow sampleAgeDocument := by
  have hbuild : sampleAges.build.result = .ok sampleAged := rfl
  have hdocument : (sampleAged.document sampleAgeRow).result = .ok sampleAgeDocument := rfl
  exact ⟨hbuild, hdocument, separates_of_document hbuild hdocument⟩

/-- Under the name that ages are sorted by, an age and a rank are found. No mapper produces both. -/
theorem shared_name_of_two : sampleAges.build.result = .ok sampleAged ∧
    (sampleAged.document sampleAgeRow).result = .ok sampleAgeDocument ∧
      ¬∀ f ∈ sampleAgeDocument.named "age.sort", ∀ g ∈ sampleAgeDocument.named "age.sort",
        ∃ m ∈ sampleAged.mappers, m.Produces sampleAgeRow f ∧ m.Produces sampleAgeRow g := by
  refine ⟨rfl, rfl, fun hall => ?_⟩
  have hage : (sampleAge.fields sampleAgeRow).result =
      .ok [.docValues "age.sort" (.int 30) .numeric,
        .indexed "age" (.int 30) .intPoint (.ofInt 1)] := rfl
  have hrank : (sampleRank.fields sampleAgeRow).result =
      .ok [.indexed "age.sort" (.int 7) .intPoint (.ofInt 1)] := rfl
  have hnamed : sampleAgeDocument.named "age.sort" =
      [.docValues "age.sort" (.int 30) .numeric,
        .indexed "age.sort" (.int 7) .intPoint (.ofInt 1)] := rfl
  rw [hnamed] at hall
  obtain ⟨m, hm, hf, hg⟩ := hall _ List.mem_cons_self _ (List.mem_cons_of_mem _ List.mem_cons_self)
  simp only [sampleAged, mappers_ofMappers, List.mem_cons, List.not_mem_nil, or_false] at hm
  rcases hm with rfl | rfl
  · simp [Mapper.Produces, hage, Field.docValues, Field.indexed] at hg
  · simp [Mapper.Produces, hrank, Field.docValues, Field.indexed] at hf

end Schema

end ColumnIndex
