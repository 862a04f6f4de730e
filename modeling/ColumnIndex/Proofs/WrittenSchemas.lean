import ColumnIndex.Proofs.SchemaDrafts
import ColumnIndex.Proofs.WrittenMappers
import ColumnIndex.Proofs.WrittenRecords
import ColumnIndex.Schema.Draft.Json

/-!
# Written schemas

The draft of a schema is read back from its text with the fields in their order, whatever their
names are, as long as no name is given twice. A name that is given twice is written twice; reading
finds it where it comes the second time, and building fails as well.

## Main definitions

* `Schema.Draft.Reproduced` — a draft whose mappers come back.
* `Schema.Draft.reread` — the draft that is read.
* `Schema.ifDistinct` — what is read, or the fault at the first name that comes a second time.

Main statement: `Schema.Draft.decode_written`.
-/
namespace ColumnIndex

open Wire
open Outcome

namespace Schema

/-! ## Repeated names -/

/-- The first name that is among those before it. -/
def repeated? (seen : List String) : List String → Option String
  | [] => none
  | name :: names => if name ∈ seen then some name else repeated? (seen ++ [name]) names

/-- There is none exactly if the names are distinct and new. -/
theorem repeated?_eq_none {seen names : List String} :
    repeated? seen names = none ↔ names.Nodup ∧ ∀ name ∈ names, name ∉ seen := by
  induction names generalizing seen with
  | nil => simp [repeated?]
  | cons name names ih =>
    rw [repeated?, List.nodup_cons, List.forall_mem_cons]
    by_cases hname : name ∈ seen
    · simp [hname]
    · rw [if_neg hname, ih]
      simp only [List.mem_append, List.mem_singleton, not_or]
      constructor
      · rintro ⟨hnodup, hnew⟩
        exact ⟨⟨fun h => (hnew name h).2 rfl, hnodup⟩, hname, fun n hn => (hnew n hn).1⟩
      · rintro ⟨⟨hfresh, hnodup⟩, -, hnew⟩
        exact ⟨hnodup, fun n hn => ⟨hnew n hn, fun h => hfresh (h ▸ hn)⟩⟩

/-- What is found comes more than once. -/
theorem one_lt_count_of_repeated? {seen names : List String} {name : String}
    (h : repeated? seen names = some name) : 1 < (seen ++ names).count name := by
  induction names generalizing seen with
  | nil => cases h
  | cons first names ih =>
    rw [repeated?] at h
    split at h
    · rename_i hfirst
      cases h
      have hseen : 0 < seen.count name := List.count_pos_iff.2 hfirst
      rw [List.count_append, List.count_cons_self]
      omega
    · rw [List.append_cons]
      exact ih h

/-- What is read under the names, or the fault at the first one that comes a second time. -/
def ifDistinct {α : Type} (seen names : List String) (a : α) : Except Fault α :=
  match repeated? seen names with
  | none => .ok a
  | some name => .error (.repeatedField name)

section IfDistinct

variable {α β : Type} {seen names : List String} {name : String} {a : α}

theorem ifDistinct_of_mem (h : name ∈ seen) :
    ifDistinct seen (name :: names) a = .error (.repeatedField name) := by
  rw [ifDistinct, repeated?, if_pos h]

theorem ifDistinct_of_not_mem (h : name ∉ seen) :
    ifDistinct seen (name :: names) a = ifDistinct (seen ++ [name]) names a := by
  rw [ifDistinct, repeated?, if_neg h, ifDistinct]

theorem ifDistinct_map (f : α → β) :
    (ifDistinct seen names a).map f = ifDistinct seen names (f a) := by
  unfold ifDistinct
  split <;> rfl

theorem ifDistinct_of_nodup (h : names.Nodup) : ifDistinct [] names a = .ok a := by
  rw [ifDistinct, repeated?_eq_none.2 ⟨h, fun _ _ => List.not_mem_nil⟩]

theorem exists_of_not_nodup (h : ¬names.Nodup) : ∃ name, 1 < names.count name ∧
    ifDistinct [] names a = .error (.repeatedField name) := by
  cases hnames : repeated? [] names with
  | none => exact absurd (repeated?_eq_none.1 hnames).1 h
  | some name =>
    refine ⟨name, one_lt_count_of_repeated? hnames, ?_⟩
    rw [ifDistinct, hnames]

end IfDistinct

/-! ## Drafts that come back -/

namespace Draft

/-- Whether the mappers of a draft come back. -/
def Reproduced (d : Draft) : Prop := ∀ entry ∈ d.fields, entry.2.Reproduced

/-- The fields that are read. -/
def rereadFields (fields : List (String × Mapper.Draft)) : List (String × Mapper.Draft) :=
  fields.map fun entry => (entry.1, entry.2.reread)

/-- The draft that is read. -/
def reread (d : Draft) : Draft := { d with fields := rereadFields d.fields }

theorem sameFields_rereadFields {fields : List (String × Mapper.Draft)}
    (h : ∀ entry ∈ fields, entry.2.Reproduced) : sameFields fields (rereadFields fields) := by
  induction fields with
  | nil => rfl
  | cons entry fields ih =>
    rw [List.forall_mem_cons] at h
    have hrest : sameFields fields (rereadFields fields) := ih h.2
    rw [rereadFields] at hrest ⊢
    simp [sameFields, Mapper.Draft.same_reread h.1, hrest]

/-- The draft that is read equals the written one. -/
theorem same_reread {d : Draft} (h : d.Reproduced) : d.same d.reread := by
  simp [same, reread, sameFields_rereadFields h]

/-! ## Written fields -/

/-- The fields as members of an object. -/
def fieldMembers (fields : List (String × Mapper.Draft)) : List (String × Json) :=
  fields.map fun entry => (entry.1, entry.2.toJson)

theorem scannable_fieldMembers (fields : List (String × Mapper.Draft)) :
    Json.MembersScannable (fieldMembers fields) := by
  induction fields with
  | nil => trivial
  | cons entry fields ih => exact ⟨entry.2.legible_toJson.scannable, ih⟩

/-- Whatever is written for a draft is scanned, whatever the names are. -/
theorem scannable_toJson (d : Draft) : d.toJson.Scannable := by
  have hfields : (Json.object (fieldMembers d.fields)).Scannable := scannable_fieldMembers d.fields
  rw [toJson]
  cases d.defaultAnalyzer with
  | none => exact ⟨hfields, trivial⟩
  | some name => exact ⟨trivial, hfields, trivial⟩

/-- The fields are read one after the other, up to a name that comes a second time. -/
theorem readFieldMembers_written {room : Nat} (hroom : 1 ≤ room)
    {fields done : List (String × Mapper.Draft)} (h : ∀ entry ∈ fields, entry.2.Reproduced) :
    readFieldMembers room done (Json.memberMirrors (fieldMembers fields)) =
      ifDistinct (Entries.names done) (Entries.names fields) (done ++ rereadFields fields) := by
  induction fields generalizing done with
  | nil =>
    rw [rereadFields, List.map_nil, List.append_nil]
    rfl
  | cons entry fields ih =>
    obtain ⟨name, d⟩ := entry
    rw [List.forall_mem_cons] at h
    have htree : scanTree room Mapper.Draft.ofJson d.toJson.mirror = .ok d.reread := by
      have hregains : scanTree room Mapper.Draft.ofJson d.toJson.mirror = _ :=
        regains_tree d.legible_toJson (Mapper.Draft.ofJson_reread h.1) room
      rw [hregains, Mapper.Draft.depth_toJson, Json.ifShallow, if_pos hroom]
    have hkey : Except.mapError Fault.malformed (.ok name) = .ok name := rfl
    have hnames : Entries.names ((name, d) :: fields) = name :: Entries.names fields := rfl
    have hdone : Entries.names (done ++ [(name, d.reread)]) = Entries.names done ++ [name] :=
      List.map_append
    change readFieldMembers room done
      ((.ok name, d.toJson.mirror) :: Json.memberMirrors (fieldMembers fields)) = _
    rw [readFieldMembers, hkey, ok_bind, htree, ok_bind, hnames]
    split
    · rename_i hname
      rw [ifDistinct_of_mem hname]
    · rename_i hname
      rw [ih h.2, ifDistinct_of_not_mem hname, hdone, List.append_assoc]
      rfl

/-- The fields are read where they stand behind what was read already. -/
theorem readMembers_fields (room : Nat) {seen : List String} (hseen : "fields" ∉ seen)
    (analyzer : Option String) (s : Json.Scan) :
    readMembers slots room seen ⟨analyzer, []⟩ [(.ok "fields", s)] =
      (readFields room s).map fun fields => (⟨analyzer, fields⟩, "fields" :: seen) := by
  have hkey : Except.mapError Fault.malformed (.ok "fields") = .ok "fields" := rfl
  have hslot : slots.find? (·.name == "fields") = some ⟨"fields", false, fun room d s => do
      let fields ← readFields room s
      pure { d with fields := fields }⟩ := rfl
  rw [readMembers, hkey, ok_bind, hslot]
  simp only [if_neg hseen]
  cases readFields room s <;> rfl

/-- A record is read as its fields are, whether it names an analyzer or not. -/
theorem readRecord_written (room : Nat) (analyzer : Option String) (s : Json.Scan) :
    readRecord "struct SchemaBuilder" slots (room + 1) {}
      (.object (Json.memberMirrors (member? "default_analyzer" .text analyzer) ++
        [(.ok "fields", s)]) none) =
      (readFields room s).map fun fields => ⟨analyzer, fields⟩ := by
  have hread (seen : List String) (hseen : "fields" ∉ seen) :
      (readMembers slots room seen ⟨analyzer, []⟩ [(.ok "fields", s)] >>=
        fun record => do
          close none
          match slots.find? fun slot => slot.required && !record.2.contains slot.name with
          | some slot => .error (.missing slot.name)
          | none => pure record.1) = (readFields room s).map fun fields => ⟨analyzer, fields⟩ := by
    rw [readMembers_fields room hseen]
    cases readFields room s <;> rfl
  cases analyzer with
  | none => exact hread [] (by simp)
  | some name => exact hread ["default_analyzer"] (by simp)

/-- The fields of an object are read, unless a name comes a second time. -/
theorem readFields_written {room : Nat} (hroom : 2 ≤ room) {fields : List (String × Mapper.Draft)}
    (h : ∀ entry ∈ fields, entry.2.Reproduced) :
    readFields room (Json.object (fieldMembers fields)).mirror =
      ifDistinct [] (Entries.names fields) (rereadFields fields) := by
  obtain ⟨room, rfl⟩ : ∃ inner, room = inner + 1 := ⟨room - 1, by omega⟩
  have hread : readFieldMembers room [] (Json.memberMirrors (fieldMembers fields)) =
      ifDistinct [] (Entries.names fields) (rereadFields fields) :=
    readFieldMembers_written (by omega) h
  change (readFieldMembers room [] (Json.memberMirrors (fieldMembers fields)) >>= _) = _
  rw [hread]
  cases ifDistinct [] (Entries.names fields) (rereadFields fields) <;> rfl

/-- The text of a draft is read back, unless a name comes a second time. -/
theorem parse_text {d : Draft} (h : d.Reproduced) :
    parse d.text = ifDistinct [] (Entries.names d.fields) d.reread := by
  have hmirror : d.toJson.mirror =
      .object (Json.memberMirrors (member? "default_analyzer" .text d.defaultAnalyzer) ++
        [(.ok "fields", (Json.object (fieldMembers d.fields)).mirror)]) none := by
    rw [toJson]
    cases d.defaultAnalyzer <;> rfl
  have hread : readRecord "struct SchemaBuilder" slots Json.maxDepth {} d.toJson.mirror =
      ifDistinct [] (Entries.names d.fields) d.reread := by
    rw [hmirror, show Json.maxDepth = 126 + 1 from rfl, readRecord_written,
      readFields_written (by decide) h, ifDistinct_map]
    rfl
  rw [parse, text, readWhole, Json.scan_compact d.scannable_toJson]
  change (readRecord "struct SchemaBuilder" slots Json.maxDepth {} d.toJson.mirror >>= _) = _
  rw [hread]
  cases ifDistinct [] (Entries.names d.fields) d.reread <;> rfl

end Draft

end Schema

/-! ## Decoding -/

/-- What is parsed from the text of a mapper is decoded. -/
theorem Mapper.Draft.result_decode_text {d : Mapper.Draft} (h : d.Reproduced) :
    (decode d.text).result = .ok d.reread := by
  simp only [decode, parse_text h]
  rfl

namespace Schema.Draft

theorem result_decode {text : String} :
    (decode text).result = (parse text).mapError report := by
  cases h : parse text with
  | ok d =>
    simp only [decode, h]
    rfl
  | error fault =>
    simp only [decode, h]
    rfl

/-- A draft in which a name comes twice is not built. -/
theorem exists_build_error {d : Draft} (h : ¬(d.fields.map (·.1)).Nodup) :
    ∃ e, d.build.result = .error e := by
  cases hbuild : d.build.result with
  | error e => exact ⟨e, rfl⟩
  | ok s =>
    obtain ⟨-, hdistinct, -⟩ := compose_eq_ok.1 (result_build_eq_ok.1 hbuild)
    exact absurd hdistinct h

theorem result_decode_text {d : Draft} (h : d.Reproduced) : (decode d.text).result =
    (ifDistinct [] (d.fields.map (·.1)) d.reread).mapError report := by
  rw [result_decode, parse_text h, Entries.names]

/-- The text of a mapper is decoded as an equal draft. So is the text of a schema, with the fields
in their order, if their names are distinct. If they are not, decoding fails at a name that comes
twice, and building fails too. -/
theorem decode_written :
    (∀ d : Mapper.Draft, d.Reproduced →
      ∃ read, (Mapper.Draft.decode d.text).result = .ok read ∧ d.same read) ∧
    ∀ d : Draft, d.Reproduced →
      ((d.fields.map (·.1)).Nodup → ∃ read, (decode d.text).result = .ok read ∧ d.same read) ∧
      (¬(d.fields.map (·.1)).Nodup →
        (∃ name, 1 < (d.fields.map (·.1)).count name ∧
          (decode d.text).result = .error (report (Fault.repeatedField name))) ∧
        ∃ e, d.build.result = .error e) := by
  refine ⟨?_, ?_⟩
  · intro d h
    exact ⟨d.reread, Mapper.Draft.result_decode_text h, Mapper.Draft.same_reread h⟩
  · intro d h
    rw [result_decode_text h]
    refine ⟨fun hdistinct => ?_, fun hrepeated => ⟨?_, exists_build_error hrepeated⟩⟩
    · refine ⟨d.reread, ?_, same_reread h⟩
      rw [ifDistinct_of_nodup hdistinct]
      rfl
    · obtain ⟨name, hcount, hname⟩ := exists_of_not_nodup (a := d.reread) hrepeated
      refine ⟨name, hcount, ?_⟩
      rw [hname]
      rfl

/-- Prices are decoded, alone, in a schema, and not where they are declared twice. -/
theorem decode_written_prices :
    let boost : Single := .ofBits 0x3FC00000
    let price : Mapper.Draft :=
      { sorted := some true, column := some "\"cost\"\n", boost := some boost
        kind := .bigDecimal (some 8) none }
    let plain : Mapper.Draft := { kind := .text (some "standard") }
    (∃ read, (Mapper.Draft.decode price.text).result = .ok read ∧ price.same read) ∧
      (let d : Draft := ⟨some "standard", [("price", price), ("", plain)]⟩
      ∃ read, (decode d.text).result = .ok read ∧ d.same read) ∧
      let d : Draft := ⟨none, [("price", price), ("price", plain)]⟩
      (∃ name, 1 < (d.fields.map (·.1)).count name ∧
        (decode d.text).result = .error (report (Fault.repeatedField name))) ∧
      ∃ e, d.build.result = .error e := by
  intro boost price plain
  have hboost : boost.Reproduced := Single.reproduced_iff.2 ⟨by decide, by decide +kernel⟩
  have hprice : price.Reproduced := by
    intro x hx
    exact Option.some.inj hx ▸ hboost
  have hplain : plain.Reproduced := by
    intro x hx
    cases hx
  refine ⟨decode_written.1 price hprice, (decode_written.2 _ ?_).1 (by decide),
    (decode_written.2 _ ?_).2 (by decide)⟩
  · exact List.forall_mem_cons.2 ⟨hprice, List.forall_mem_singleton.2 hplain⟩
  · exact List.forall_mem_cons.2 ⟨hprice, List.forall_mem_singleton.2 hplain⟩

end Schema.Draft

end ColumnIndex
