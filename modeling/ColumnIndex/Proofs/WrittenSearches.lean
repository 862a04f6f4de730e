import ColumnIndex.Proofs.ReadConditions
import ColumnIndex.Proofs.WrittenRecords
import ColumnIndex.Search.Json

/-!
# Written conditions and searches are decoded

The text that was written for a condition or a search is decoded as an equal draft, unless its
lists and objects are nested deeper than JSON may be. For a condition the text is read as a tree
first; for a search its conditions are read while the record is.

## Main definitions

* `Search.Draft.Reproduced` — a draft whose conditions come back.
* `RoundTrips` — whether the text that was written for a draft is decoded as it should be.

Main statement: `decode_text`.
-/
namespace ColumnIndex

open Wire

namespace Search

/-! ## Parts of searches -/

/-- A criterion is read where it was written. -/
theorem regains_sort (s : SortRequest) : Regains scanSort (sortJson s) s := by
  obtain ⟨field, reverse⟩ := s
  intro room
  cases room with
  | zero => cases reverse <;> rfl
  | succ room => cases reverse <;> rfl

/-- A condition is read where it was written. -/
theorem regains_condition {d : Condition.Draft} (h : d.Reproduced) :
    Regains scanCondition d.toJson (some d.reread) := by
  refine regains_optional ?_ (regains_tree d.legible_toJson
    (Condition.Draft.ofJson_reread h))
  cases d <;> simp [Condition.Draft.toJson, Json.mirror]

namespace Draft

/-- Whether the conditions of a draft come back. -/
def Reproduced (d : Draft) : Prop :=
  (∀ c ∈ d.query, c.Reproduced) ∧ ∀ c ∈ d.filter, c.Reproduced

/-- The draft that is read. -/
def reread (d : Draft) : Draft :=
  { d with
    query := d.query.map Condition.Draft.reread
    filter := d.filter.map Condition.Draft.reread }

theorem sameCondition_reread {c : Option Condition.Draft} (h : ∀ d ∈ c, d.Reproduced) :
    sameCondition c (c.map Condition.Draft.reread) := by
  cases c with
  | none => rfl
  | some d => exact Condition.Draft.same_reread (h d rfl)

/-- The draft that is read equals the written one. -/
theorem same_reread {d : Draft} (h : d.Reproduced) : d.same d.reread := by
  simp [same, reread, sameCondition_reread h.1, sameCondition_reread h.2]

/-! ## Members -/

/-- The criteria, if they are written at all. -/
def sort? (d : Draft) : Option (List SortRequest) := if d.sort.isEmpty then none else some d.sort

/-- The list of the criteria. -/
def sortsJson (sort : List SortRequest) : Json := .list (sort.map sortJson)

/-- The members of the object of a draft. -/
def members (d : Draft) : List (String × Json) :=
  member? "query" Condition.Draft.toJson d.query
    ++ (member? "filter" Condition.Draft.toJson d.filter
    ++ (member? "sort" sortsJson d.sort? ++ (member? "refresh" .bool d.refresh ++ [])))

theorem toJson_eq (d : Draft) : d.toJson = .object d.members := by
  rw [toJson, members, sort?]
  cases d.sort with
  | nil => simp [member?]
  | cons s ss => simp [member?, sortsJson]

theorem legible_sortsJson (sort : List SortRequest) : (sortsJson sort).Legible := by
  induction sort with
  | nil => trivial
  | cons s ss ih =>
    refine ⟨?_, ih⟩
    obtain ⟨field, reverse⟩ := s
    cases reverse with
    | false => exact ⟨by simp [Entries.names], trivial, trivial⟩
    | true => exact ⟨by simp [Entries.names], trivial, trivial, trivial⟩

/-- Whatever is written for a draft can be read as JSON. -/
theorem legible_toJson (d : Draft) : d.toJson.Legible := by
  rw [toJson_eq]
  refine ⟨List.Nodup.sublist ?_ (show ["query", "filter", "sort", "refresh"].Nodup by decide), ?_⟩
  · rw [members]
    simp only [Entries.names_append]
    exact (names_member?_sublist "query" _ _).append ((names_member?_sublist "filter" _ _).append
      ((names_member?_sublist "sort" _ _).append ((names_member?_sublist "refresh" _ _).append
        (List.Sublist.refl []))))
  · simp only [members, Json.membersLegible_append, Json.membersLegible_member?]
    exact ⟨fun c _ => c.legible_toJson, fun c _ => c.legible_toJson,
      fun ss _ => legible_sortsJson ss, fun _ _ => trivial, trivial⟩

/-- The criteria are read where they were written. -/
theorem regains_sorts (sort : List SortRequest) :
    Regains (fun room => scanList room scanSort) (sortsJson sort) sort := by
  have hsort : Regains (fun room => scanList room scanSort) (sortsJson sort) (sort.map id) :=
    regains_list fun s _ => regains_sort s
  rwa [List.map_id] at hsort

/-- The refresh flag is read where it was written. -/
theorem regains_refresh (refresh : Bool) :
    Regains (fun _ => scanOptional scanBool) (.bool refresh) (some refresh) :=
  regains_optional (by simp [Json.mirror]) (regains_bool refresh)

theorem sort?_eq_none {d : Draft} : d.sort? = none ↔ d.sort = [] := by
  simp [sort?]

theorem sort?_eq_some {d : Draft} {ss : List SortRequest} (h : d.sort? = some ss) :
    ss = d.sort := by
  rw [sort?] at h
  split_ifs at h
  exact (Option.some.inj h).symm

/-- The members of a draft are read one after the other. -/
theorem exists_readMembers {d : Draft} (h : d.Reproduced) (room : Nat) :
    ∃ seen, readMembers slots room [] {} (Json.memberMirrors d.members)
      = Json.ifShallow (.malformed .tooDeep) (Json.memberDepth d.members) room
        (d.reread, seen) := by
  apply Exists.intro
  -- The record grows by an attribute at a time; one that was not written leaves it as it was.
  let query := d.query.map Condition.Draft.reread
  let filter := d.filter.map Condition.Draft.reread
  have hquery : d.query = none → (⟨query, none, [], none⟩ : Draft) = {} := by
    intro hnone
    simp [query, hnone]
  have hfilter : d.filter = none →
      (⟨query, filter, [], none⟩ : Draft) = ⟨query, none, [], none⟩ := by
    intro hnone
    simp [filter, hnone]
  have hsort : d.sort? = none →
      (⟨query, filter, d.sort, none⟩ : Draft) = ⟨query, filter, [], none⟩ := by
    intro hnone
    rw [sort?_eq_none.1 hnone]
  have hrefresh : d.refresh = none →
      (⟨query, filter, d.sort, d.refresh⟩ : Draft) = ⟨query, filter, d.sort, none⟩ := by
    intro hnone
    rw [hnone]
  rw [members]
  refine readMembers_member? rfl (by simp) hquery (fun c hc => ?_) ?_
  · have hc' : query = some c.reread := by simp only [query, Option.mem_def.1 hc, Option.map_some]
    rw [hc']
    exact (regains_condition (h.1 c hc)).map fun q => Draft.mk q none [] none
  refine readMembers_member? rfl (by simp) hfilter (fun c hc => ?_) ?_
  · have hc' : filter = some c.reread := by simp only [filter, Option.mem_def.1 hc, Option.map_some]
    rw [hc']
    exact (regains_condition (h.2 c hc)).map fun f => Draft.mk query f [] none
  refine readMembers_member? rfl (by simp) hsort (fun ss hss => ?_) ?_
  · rw [← sort?_eq_some hss]
    exact (regains_sorts ss).map fun ss => Draft.mk query filter ss none
  refine readMembers_member? rfl (by simp) hrefresh (fun b hb => ?_) ?_
  · rw [Option.mem_def.1 hb]
    exact (regains_refresh b).map fun r => Draft.mk query filter d.sort r
  exact (Json.ifShallow_zero _).symm

/-- A draft is read where it was written. -/
theorem regains_draft {d : Draft} (h : d.Reproduced) :
    Regains (fun room => readRecord "struct SearchBuilder" slots room {}) d.toJson d.reread := by
  rw [toJson_eq]
  refine regains_record fun room => ?_
  obtain ⟨seen, hseen⟩ := exists_readMembers h room
  exact ⟨seen, hseen, by simp [slots]⟩

/-- The text of a draft is read back, unless it is nested too deep. -/
theorem parse_text {d : Draft} (h : d.Reproduced) :
    parse d.text = if d.toJson.depth ≤ Json.maxDepth then .ok d.reread
      else .error (.malformed .tooDeep) :=
  readWhole_compact d.legible_toJson (regains_draft h)

end Draft

end Search

/-- The text of a condition is read back, unless it is nested too deep. -/
theorem Condition.Draft.parse_text {d : Draft} (h : d.Reproduced) :
    parse d.text = if d.toJson.depth ≤ Json.maxDepth then .ok d.reread
      else .error (.malformed .tooDeep) := by
  rw [parse, text, Json.parse_compact d.legible_toJson]
  split_ifs with hdepth
  · exact ofJson_reread h
  · rfl

/-! ## Decoding -/

variable {α : Type}

/-- Whether from the text that was written for a draft an equal one is decoded. A text that is
nested too deep must be an error of serialization. -/
def RoundTrips (same : α → α → Bool) (decode : String → Recorded α) (text : String) (depth : Nat)
    (a : α) : Prop :=
  if depth ≤ Json.maxDepth then ∃ b, (decode text).result = .ok b ∧ same a b
  else ∃ e, (decode text).result = .error e ∧ e.errorClass = .serialization

/-- What is read back is decoded. -/
theorem roundTrips_of_parse {same : α → α → Bool} {parse : String → Except Fault α} {event : Event}
    {text : String} {depth : Nat} {a b : α} (hsame : same a b)
    (h : parse text = if depth ≤ Json.maxDepth then .ok b else .error (.malformed .tooDeep)) :
    RoundTrips same
      (fun text => do
        let d ← .ofExcept (parse text)
        .note event
        pure d) text depth a := by
  unfold RoundTrips
  split_ifs at h ⊢ with hdepth
  · refine ⟨b, ?_, hsame⟩
    simp only [h]
    rfl
  · refine ⟨report (Fault.malformed .tooDeep), ?_, rfl⟩
    simp only [h]
    rfl

/-- The text of a condition or a search is decoded as an equal draft exactly if it is not nested
too deep for JSON. -/
theorem decode_text :
    (∀ d : Condition.Draft, d.Reproduced →
      RoundTrips Condition.Draft.same Condition.Draft.decode d.text d.toJson.depth d) ∧
    ∀ d : Search.Draft, d.Reproduced →
      RoundTrips Search.Draft.same Search.Draft.decode d.text d.toJson.depth d :=
  ⟨fun _ h => roundTrips_of_parse (Condition.Draft.same_reread h) (Condition.Draft.parse_text h),
    fun _ h => roundTrips_of_parse (Search.Draft.same_reread h) (Search.Draft.parse_text h)⟩

/-- A condition with numbers, literals and parts is decoded, alone and in a search. -/
theorem decode_text_priced :
    let boost : Single := .ofBits 0x3FC00000
    let price : Double := .ofBits 0x3FF8000000000000
    let priced : Condition.Draft :=
      .boolean (some boost) [(Condition.Draft.range "price").withLower (.double price)] []
        [.term "title" (.text "\"a\"\n")]
    RoundTrips Condition.Draft.same Condition.Draft.decode priced.text priced.toJson.depth priced ∧
      let search : Search.Draft := ⟨some priced, none, [⟨"price", true⟩], some true⟩
      RoundTrips Search.Draft.same Search.Draft.decode search.text search.toJson.depth search := by
  intro boost price priced
  have hboost : boost.Reproduced := Single.reproduced_iff.2 ⟨by decide, by decide +kernel⟩
  have hprice : price.Reproduced := Double.reproduced_iff.2 ⟨by decide, by decide +kernel⟩
  have hrange : ((Condition.Draft.range "price").withLower (.double price)).Reproduced := by
    refine Condition.Draft.reproduced_withLower (Condition.Draft.reproduced_range "price") ?_ hprice
    change Value.double price ≠ .null
    simp
  have hpriced : priced.Reproduced :=
    ⟨by simpa using hboost, ⟨hrange, trivial⟩, trivial,
      ⟨Condition.Draft.reproduced_term trivial, trivial⟩⟩
  refine ⟨decode_text.1 priced hpriced, decode_text.2 _ ⟨?_, by simp⟩⟩
  intro c hc
  obtain rfl := Option.some.inj hc
  exact hpriced

end ColumnIndex
