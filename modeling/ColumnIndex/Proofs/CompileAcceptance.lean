import ColumnIndex.Condition.Draft
import ColumnIndex.Metrics.Counters
import ColumnIndex.Proofs.ConditionMeaning
import Mathlib.Data.List.Forall2

/-!
# Which conditions compile

A tree of conditions compiles when each of its leaves does, so the first leaf in the order of the
tree that does not fit the schema gives the fault. Boolean conditions add nothing of their own but
the clause for all rows.

## Main definitions

* `Condition.leaves` — the leaves of a tree, in order.
* `Condition.Leaf.Acceptable` — whether a leaf fits a schema.
* `Condition.Becomes` — the query of a tree, clause by clause.
* `Condition.Compiles` — all that is said of a compilation.
-/
namespace ColumnIndex.Condition

open Outcome

/-! ## Leaves that fit -/

mutual

/-- The leaves of a tree: of a boolean condition first those of what must hold, then those of what
should, then those of what must not. -/
def leaves : Condition → List Leaf
  | boolean _ must should not => leavesOf must ++ leavesOf should ++ leavesOf not
  | leaf _ l => [l]
  | _ => []

/-- The leaves of several trees. -/
def leavesOf : List Condition → List Leaf
  | [] => []
  | c :: cs => leaves c ++ leavesOf cs

end

/-- The mapper of the field has one of the families. -/
def HasFamily (s : Schema) (field : String) (families : List BaseFamily) (m : Mapper) : Prop :=
  s.mapper? field = some m ∧ m.tag.family ∈ families

/-- The families of the fields whose payloads are not points. -/
def scalarFamilies : List BaseFamily := [.numeric, .keyword, .textual]

/-- The mapper does not reject the literal. -/
def Accepts (m : Mapper) (v : Value) : Prop := ∃ base, m.coerce m.field v = .ok base

/-- Whether a leaf fits a schema. -/
def Leaf.Acceptable (s : Schema) : Leaf → Prop
  | pattern _ field _ => ∃ m, HasFamily s field [.keyword, .textual] m
  | fuzzy field .. => ∃ m, HasFamily s field [.keyword, .textual] m
  | phrase field .. => ∃ m, HasFamily s field [.keyword, .textual] m
  | geoBox field _ => ∃ m, HasFamily s field [.spatial] m
  | geoDistance field .. => ∃ m, HasFamily s field [.spatial] m
  | literal _ field v => ∃ m, HasFamily s field scalarFamilies m ∧ v ≠ .null ∧ Accepts m v
  | contains field values =>
    ∃ m, HasFamily s field scalarFamilies m ∧ ∀ v ∈ values, v ≠ .null ∧ Accepts m v
  | range field lower upper _ _ =>
    ∃ m, HasFamily s field scalarFamilies m ∧ (∀ v ∈ lower, Accepts m v) ∧
      ∀ v ∈ upper, Accepts m v

variable {s : Schema}

theorem isString_iff (t : MapperTag) : t.isString ↔ t.family ∈ [BaseFamily.keyword, .textual] := by
  simp [MapperTag.isString]

theorem isSpatial_iff (t : MapperTag) : t.isSpatial ↔ t.family ∈ [BaseFamily.spatial] := by
  simp [MapperTag.isSpatial]

theorem isSpatial_eq_false_iff (t : MapperTag) :
    t.isSpatial = false ↔ t.family ∈ scalarFamilies := by
  cases t <;> decide

/-- A literal has a payload if it is accepted and not empty. -/
theorem exists_payload_iff {m : Mapper} {v : Value} :
    (∃ base, payload m v = .ok base) ↔ v ≠ .null ∧ Accepts m v := by
  simp only [payload_eq_ok, Accepts]
  constructor
  · rintro ⟨base, h⟩
    refine ⟨?_, some base, h⟩
    rintro rfl
    cases h
  · rintro ⟨hv, base, h⟩
    cases base with
    | none => exact absurd (Mapper.coerce_eq_none.1 h) hv
    | some base => exact ⟨base, h⟩

theorem exists_bound_iff {m : Mapper} {v : Option Value} :
    (∃ base, bound m v = .ok base) ↔ ∀ w ∈ v, Accepts m w := by
  cases v with
  | none => simp [bound]
  | some v => simp [bound, payload?_eq_ok, Accepts]

theorem exists_matchQuery_iff {field : String} {v : Value} :
    (∃ q, matchQuery s field v = .ok q) ↔
      ∃ m, HasFamily s field scalarFamilies m ∧ v ≠ .null ∧ Accepts m v := by
  simp only [matchQuery, exists_bind_eq_ok, scalarMapper_eq_ok, isSpatial_eq_false_iff]
  refine exists_congr fun m => and_congr_right fun _ => ?_
  rw [← exists_payload_iff]
  refine exists_congr fun base => and_iff_left ?_
  split
  · exact ⟨_, rfl⟩
  · exact ⟨_, rfl⟩

theorem exists_matchClauses_iff {field : String} {values : List Value} :
    (∃ clauses, matchClauses s field values = .ok clauses) ↔
      ∀ v ∈ values, ∃ q, matchQuery s field v = .ok q := by
  induction values with
  | nil => simp [matchClauses]
  | cons v vs ih =>
    rw [List.forall_mem_cons, ← ih]
    simp [matchClauses, exists_bind_eq_ok, pure, Except.pure]

/-- A list of literals is not empty. -/
def Leaf.HasValues : Leaf → Prop
  | contains _ values => values ≠ []
  | _ => True

/-- A leaf compiles exactly if it fits the schema. The field of an empty list of literals would
not be looked for. -/
theorem Leaf.exists_query_iff {l : Leaf} (hl : l.HasValues) :
    (∃ q, l.query s = .ok q) ↔ l.Acceptable s := by
  cases l with
  | pattern form field text =>
    simp [Leaf.query, exists_bind_eq_ok, stringMapper_eq_ok, isString_iff, Acceptable, HasFamily,
      pure, Except.pure]
  | fuzzy field text maxEdits prefixLength maxExpansions transpositions =>
    simp [Leaf.query, exists_bind_eq_ok, stringMapper_eq_ok, isString_iff, Acceptable, HasFamily,
      pure, Except.pure]
  | literal form field v =>
    cases form with
    | term =>
      simp only [Leaf.query, exists_bind_eq_ok, scalarMapper_eq_ok, isSpatial_eq_false_iff]
      refine exists_congr fun m => and_congr_right fun _ => ?_
      rw [← exists_payload_iff]
      exact exists_congr fun base => and_iff_left ⟨_, rfl⟩
    | matching => exact exists_matchQuery_iff
  | phrase field text slop =>
    simp [Leaf.query, exists_bind_eq_ok, stringMapper_eq_ok, isString_iff, Acceptable, HasFamily,
      pure, Except.pure]
  | contains field values =>
    have hclauses : (∃ q, (Leaf.contains field values).query s = .ok q) ↔
        ∀ v ∈ values, ∃ m, HasFamily s field scalarFamilies m ∧ v ≠ .null ∧ Accepts m v := by
      simp only [Leaf.query, exists_bind_eq_ok, ← exists_matchQuery_iff,
        ← exists_matchClauses_iff]
      exact exists_congr fun clauses => and_iff_left ⟨_, rfl⟩
    rw [hclauses]
    constructor
    · intro h
      obtain ⟨v, hv⟩ := List.exists_mem_of_ne_nil values hl
      obtain ⟨m, hm, -⟩ := h v hv
      refine ⟨m, hm, fun w hw => ?_⟩
      obtain ⟨m', hm', haccepted⟩ := h w hw
      rwa [Option.some.inj (hm.1.symm.trans hm'.1)]
    · rintro ⟨m, hm, h⟩ v hv
      exact ⟨m, hm, h v hv⟩
  | range field lower upper includeLower includeUpper =>
    simp only [Leaf.query, exists_bind_eq_ok, scalarMapper_eq_ok, isSpatial_eq_false_iff]
    refine exists_congr fun m => and_congr_right fun _ => ?_
    rw [← exists_bound_iff, ← exists_bound_iff]
    simp [pure, Except.pure]
  | geoBox field box =>
    simp [Leaf.query, exists_bind_eq_ok, spatialMapper_eq_ok, isSpatial_iff, Acceptable,
      HasFamily, pure, Except.pure]
  | geoDistance field latitude longitude minimum maximum =>
    simp [Leaf.query, exists_bind_eq_ok, spatialMapper_eq_ok, isSpatial_iff, Acceptable,
      HasFamily, pure, Except.pure]

/-! ## The first fault -/

mutual

/-- A tree fails as the first of its leaves that does. -/
theorem fault?_query : ∀ c : Condition,
    fault? (c.query s) = c.leaves.findSome? fun l => fault? (l.query s)
  | .all _ => rfl
  | .nothing _ => rfl
  | .boolean boost must should not => by
    rw [query, leaves, List.findSome?_append, List.findSome?_append, Option.or_assoc,
      ← fault?_clauses .must must, ← fault?_clauses .should should, ← fault?_clauses .mustNot not]
    exact fault?_bind fun musts => fault?_bind fun shoulds => fault?_bind_pure ..
  | .leaf boost l => by
    simp [query, leaves]

/-- Several trees fail as the first of their leaves that does. -/
theorem fault?_clauses : ∀ (occur : Occur) (cs : List Condition),
    fault? (clauses s occur cs) = (leavesOf cs).findSome? fun l => fault? (l.query s)
  | occur, [] => rfl
  | occur, c :: cs => by
    rw [clauses, leavesOf, List.findSome?_append, ← fault?_query c, ← fault?_clauses occur cs]
    exact fault?_bind fun q => fault?_bind_pure ..

end

theorem exists_query_iff {c : Condition} (hc : ∀ l ∈ c.leaves, l.HasValues) :
    (∃ q, c.query s = .ok q) ↔ ∀ l ∈ c.leaves, l.Acceptable s := by
  rw [← fault?_eq_none, fault?_query, List.findSome?_eq_none_iff]
  refine forall₂_congr fun l hl => ?_
  rw [fault?_eq_none, Leaf.exists_query_iff (hc l hl)]

/-- The fault is that of the first leaf that does not fit the schema. -/
theorem first_of_query_eq_error {c : Condition} (hc : ∀ l ∈ c.leaves, l.HasValues)
    {fault : CompileFault} (h : c.query s = .error fault) :
    ∃ before l after, c.leaves = before ++ l :: after ∧ (∀ l' ∈ before, l'.Acceptable s) ∧
      ¬l.Acceptable s ∧ l.query s = .error fault := by
  rw [← fault?_eq_some, fault?_query, List.findSome?_eq_some_iff] at h
  obtain ⟨before, l, after, hleaves, hl, hbefore⟩ := h
  rw [fault?_eq_some] at hl
  refine ⟨before, l, after, hleaves, fun l' hl' => ?_, ?_, hl⟩
  · rw [← Leaf.exists_query_iff (hc l' (by simp [hleaves, hl'])), ← fault?_eq_none]
    exact hbefore l' hl'
  · rw [← Leaf.exists_query_iff (hc l (by simp [hleaves])), hl]
    simp

/-! ## The query of a tree -/

/-- The clauses of queries that take part in the given way. -/
def asClauses (occur : Occur) (qs : List Query) : List (Occur × Query) := qs.map fun q => (occur, q)

/-- The query that a tree becomes. A boolean condition becomes the clauses of its lists in their
order; a clause for all rows leads where nothing is asked for. -/
inductive Becomes (s : Schema) : Condition → Query → Prop
  | all {boost} : Becomes s (.all boost) (Query.matchAll.boosted boost)
  | nothing {boost} : Becomes s (.nothing boost) (Query.matchNone.boosted boost)
  | leaf {boost l q} : l.query s = .ok q → Becomes s (.leaf boost l) (q.boosted boost)
  | boolean {boost must should not musts shoulds nots} : List.Forall₂ (Becomes s) must musts →
    List.Forall₂ (Becomes s) should shoulds → List.Forall₂ (Becomes s) not nots →
    Becomes s (.boolean boost must should not)
      ((Query.boolean
          ((if must = [] ∧ should = [] then [(.must, .matchAll)] else []) ++ asClauses .must musts
            ++ asClauses .should shoulds ++ asClauses .mustNot nots)).boosted boost)

theorem implicitClauses_eq (must should : List Condition) :
    implicitClauses must should =
      if must = [] ∧ should = [] then [(.must, .matchAll)] else [] := by
  simp [implicitClauses]

mutual

theorem becomes_of_query : ∀ {c : Condition} {q : Query}, c.query s = .ok q → Becomes s c q
  | .all _, q, h => by
    cases h
    exact .all
  | .nothing _, q, h => by
    cases h
    exact .nothing
  | .boolean boost must should not, q, h => by
    simp only [query, bind_eq_ok, pure_eq_ok] at h
    obtain ⟨musts, hmusts, shoulds, hshoulds, nots, hnots, rfl⟩ := h
    obtain ⟨ms, hms, rfl⟩ := becomes_of_clauses hmusts
    obtain ⟨ss, hss, rfl⟩ := becomes_of_clauses hshoulds
    obtain ⟨ns, hns, rfl⟩ := becomes_of_clauses hnots
    rw [implicitClauses_eq]
    exact .boolean hms hss hns
  | .leaf boost l, q, h => by
    obtain ⟨ql, hl, rfl⟩ := map_eq_ok.1 h
    exact .leaf hl

theorem becomes_of_clauses : ∀ {occur : Occur} {cs : List Condition} {qs : List (Occur × Query)},
    clauses s occur cs = .ok qs →
    ∃ queries, List.Forall₂ (Becomes s) cs queries ∧ asClauses occur queries = qs
  | occur, [], qs, h => by
    cases h
    exact ⟨[], .nil, rfl⟩
  | occur, c :: cs, qs, h => by
    simp only [clauses, bind_eq_ok, pure_eq_ok] at h
    obtain ⟨q, hq, rest, hrest, rfl⟩ := h
    obtain ⟨queries, hqueries, rfl⟩ := becomes_of_clauses hrest
    exact ⟨q :: queries, .cons (becomes_of_query hq) hqueries, rfl⟩

end

/-! ## Built conditions -/

/-- A built list of literals is not empty. -/
theorem Leaf.hasValues_of_build {d : Draft.Leaf} {l : Leaf} (h : d.build = .ok l) :
    l.HasValues := by
  cases d with
  | contains field values =>
    cases values with
    | nil => cases h
    | cons v vs =>
      simp only [Draft.Leaf.build, List.isEmpty_cons, Bool.false_eq_true, if_false,
        List.mapM_cons, bind_eq_ok, pure_eq_ok] at h
      obtain ⟨built, ⟨w, -, ws, -, rfl⟩, name, -, rfl⟩ := h
      exact List.cons_ne_nil w ws
  | fuzzy field text maxEdits prefixLength maxExpansions transpositions =>
    simp only [Draft.Leaf.build] at h
    split at h
    · cases h
    · split at h
      · cases h
      · simp only [bind_eq_ok, pure_eq_ok] at h
        obtain ⟨_, -, _, -, rfl⟩ := h
        trivial
  | _ =>
    simp only [Draft.Leaf.build, bind_eq_ok, pure_eq_ok] at h
    grind [Leaf.HasValues]

mutual

theorem hasValues_of_build : ∀ {d : Draft} {c : Condition}, d.build = .ok c →
    ∀ l ∈ c.leaves, l.HasValues
  | .all boost, c, h => by
    simp only [Draft.build, bind_eq_ok, pure_eq_ok] at h
    obtain ⟨b, -, rfl⟩ := h
    simp [leaves]
  | .nothing boost, c, h => by
    simp only [Draft.build, bind_eq_ok, pure_eq_ok] at h
    obtain ⟨b, -, rfl⟩ := h
    simp [leaves]
  | .boolean boost must should not, c, h => by
    simp only [Draft.build, bind_eq_ok, pure_eq_ok] at h
    obtain ⟨b, -, ms, hms, ss, hss, ns, hns, rfl⟩ := h
    simp only [leaves, List.forall_mem_append]
    exact ⟨⟨hasValues_of_buildAll hms, hasValues_of_buildAll hss⟩, hasValues_of_buildAll hns⟩
  | .leaf boost l, c, h => by
    simp only [Draft.build, bind_eq_ok, pure_eq_ok] at h
    obtain ⟨b, -, built, hl, rfl⟩ := h
    simpa [leaves] using Leaf.hasValues_of_build hl

theorem hasValues_of_buildAll : ∀ {ds : List Draft} {cs : List Condition},
    Draft.buildAll ds = .ok cs → ∀ l ∈ leavesOf cs, l.HasValues
  | [], cs, h => by
    cases h
    simp [leavesOf]
  | d :: ds, cs, h => by
    simp only [Draft.buildAll, bind_eq_ok, pure_eq_ok] at h
    obtain ⟨c, hc, rest, hrest, rfl⟩ := h
    simp only [leavesOf, List.forall_mem_append]
    exact ⟨hasValues_of_build hc, hasValues_of_buildAll hrest⟩

end

/-! ## Compilations -/

theorem compile_eq_ok {c : Condition} {q : Query} :
    (c.compile s).result = .ok q ↔ c.query s = .ok q := mapError_eq_ok

/-- A compilation counts as one of its queries, with the nodes of the condition. -/
theorem operations_of_compile_eq_ok {c : Condition} {q : Query} (h : c.query s = .ok q)
    (k : Counters) :
    (k.countAll (c.compile s).events).operations =
      { k.operations with
        queriesCompiled := saturatingAdd k.operations.queriesCompiled 1
        nodesCompiled := saturatingAdd k.operations.nodesCompiled c.nodeCount } := by
  simp only [compile, compileEvents, h]
  rfl

/-- A compilation that fails counts as rejected, and so does the literal if one is the cause. -/
theorem operations_of_compile_eq_error {c : Condition} {fault : CompileFault}
    (h : c.query s = .error fault) (k : Counters) :
    ∃ coercions ∈ [k.operations.coercionsRejected,
        saturatingAdd k.operations.coercionsRejected 1],
      (k.countAll (c.compile s).events).operations =
        { k.operations with
          compilesRejected := saturatingAdd k.operations.compilesRejected 1
          coercionsRejected := coercions } := by
  simp only [compile, compileEvents, h]
  cases fault with
  | badLiteral field fault => exact ⟨_, .tail _ (.head _), rfl⟩
  | _ => exact ⟨_, .head _, rfl⟩

/-- All that is said of a compilation: when it succeeds and what comes of the tree, which leaf is
at fault otherwise, and what is counted. -/
structure Compiles (c : Condition) (s : Schema) : Prop where
  accepted : (∃ q, (c.compile s).result = .ok q) ↔ ∀ l ∈ c.leaves, l.Acceptable s
  becomes : ∀ q, (c.compile s).result = .ok q → Becomes s c q
  first : ∀ e, (c.compile s).result = .error e → e.errorClass = .compilation ∧
    ∃ before l after, c.leaves = before ++ l :: after ∧ (∀ l' ∈ before, l'.Acceptable s) ∧
      ¬l.Acceptable s ∧ ∀ boost, ((leaf boost l).compile s).result = .error e
  counted : ∀ q, (c.compile s).result = .ok q → ∀ k : Counters,
    (k.countAll (c.compile s).events).operations =
      { k.operations with
        queriesCompiled := saturatingAdd k.operations.queriesCompiled 1
        nodesCompiled := saturatingAdd k.operations.nodesCompiled c.nodeCount }
  rejected : ∀ e, (c.compile s).result = .error e → ∀ k : Counters,
    ∃ coercions ∈ [k.operations.coercionsRejected,
        saturatingAdd k.operations.coercionsRejected 1],
      (k.countAll (c.compile s).events).operations =
        { k.operations with
          compilesRejected := saturatingAdd k.operations.compilesRejected 1
          coercionsRejected := coercions }

/-- Every built condition compiles against every schema as is said. -/
theorem compiles_of_build {d : Draft} {c : Condition} (h : d.build = .ok c) (s : Schema) :
    c.Compiles s where
  accepted := by
    simp only [compile_eq_ok]
    exact exists_query_iff (hasValues_of_build h)
  becomes q hq := becomes_of_query (compile_eq_ok.1 hq)
  first e he := by
    obtain ⟨fault, hfault, rfl⟩ := mapError_eq_error.1 he
    obtain ⟨before, l, after, hleaves, hbefore, hl, hquery⟩ :=
      first_of_query_eq_error (hasValues_of_build h) hfault
    refine ⟨rfl, before, l, after, hleaves, hbefore, hl, fun boost => ?_⟩
    exact mapError_eq_error.2 ⟨fault, map_eq_error.2 hquery, rfl⟩
  counted q hq k := operations_of_compile_eq_ok (compile_eq_ok.1 hq) k
  rejected e he k := by
    obtain ⟨fault, hfault, -⟩ := mapError_eq_error.1 he
    exact operations_of_compile_eq_error hfault k

/-- A title in terms, a year that is not among some, and no pattern for the year. -/
def sampleDraft : Draft :=
  .boolean none [.leaf none (.literal .matching "title" (.text "Red Fox"))] []
    [.leaf none (.contains "year" [.long 1984, .long 2001]),
      .leaf none (.pattern .wildcard "year" "19*")]

/-- What is built of the sample. Its last leaf is the one that does not fit the schema. -/
def sampleTree : Condition :=
  .boolean defaultBoost [.leaf defaultBoost (.literal .matching "title" (.text "Red Fox"))] []
    [.leaf defaultBoost (.contains "year" [.long 1984, .long 2001]),
      .leaf defaultBoost (.pattern .wildcard "year" "19*")]

theorem compiles_of_build_sample :
    sampleDraft.build = .ok sampleTree ∧ sampleTree.Compiles sampleSchema := by
  have h : sampleDraft.build = .ok sampleTree := rfl
  exact ⟨h, compiles_of_build h sampleSchema⟩

end ColumnIndex.Condition
