import ColumnIndex.Proofs.KnownAttributes
import ColumnIndex.Schema.Draft.Json
import ColumnIndex.Search.Json

/-!
# What requests pass over

A search or a schema that is read has no unknown attribute in its conditions and mappers. Only the
records pass over members that they do not know: the search itself, its criteria, and the schema.
What is read does not hang on these members. Without them every attribute is a known one.

## Main definitions

* `Wire.prune` — a record without the members that it does not know.
* `Wire.IsRecord` — records that have known attributes only.
* `Search.prune`, `Search.IsStrict`, `Schema.prune`, `Schema.IsStrict` — the same of requests.

Main statement: `Wire.strict_of_parse`.
-/
namespace ColumnIndex

open Outcome Wire
open Json (Scan SyntaxFault Stop)

namespace Wire

/-! ## Records without unknown members -/

/-- Whether a member has one of the names. A name that cannot be read is not passed over. -/
def hasName (names : List String) (member : Except SyntaxFault String × Scan) : Bool :=
  match member.1 with
  | .ok name => names.contains name
  | .error _ => true

/-- The value of a member after a change that hangs on its name. -/
def changeValue (change : String → Scan → Scan) (member : Except SyntaxFault String × Scan) :
    Except SyntaxFault String × Scan :=
  match member.1 with
  | .ok name => (.ok name, change name member.2)
  | .error fault => (.error fault, member.2)

/-- No change. -/
def keepValue (_ : String) (s : Scan) : Scan := s

/-- A record without the members that have none of the names. The values of the others are
changed, each as its name says. -/
def prune (names : List String) (change : String → Scan → Scan) : Scan → Scan
  | .object members stop => .object ((members.filter (hasName names)).map (changeValue change)) stop
  | .list items stop => .list (List.zipWith change names items) stop
  | s => s

/-- A record whose members all have one of the names, with values that are as they should. In a
list the names are those of the places. -/
inductive IsRecord (names : List String) (good : String → Scan → Prop) : Scan → Prop
  | object {members : Scan.Members}
      (h : ∀ member ∈ members, ∃ name ∈ names, member.1 = .ok name ∧ good name member.2) :
      IsRecord names good (.object members none)
  | list {items : List Scan} (h : List.Forall₂ good (names.take items.length) items) :
      IsRecord names good (.list items none)

/-- What the reader of an attribute reads may be changed as `change` says, and is then good. -/
def Slot.Stands {σ : Type} (slot : Slot σ) (change : Scan → Scan) (good : Scan → Prop) : Prop :=
  ∀ {room : Nat} {record after : σ} {value : Scan}, value.IsDistinct →
    slot.read room record value = .ok after →
      slot.read room record (change value) = .ok after ∧ good (change value)

section Records

variable {σ : Type} {slots : List (Slot σ)} {change : String → Scan → Scan}
  {good : String → Scan → Prop} {room : Nat}

/-- The names of the attributes. -/
def slotNames (slots : List (Slot σ)) : List String := slots.map (·.name)

theorem unfitScan_ne_ok {α : Type} {wanted : String} {s : Scan} {a : α} :
    unfitScan wanted s ≠ .ok a := by
  cases s with
  | scalar v =>
    cases v with
    | ok j => simp [unfitScan]
    | error fault => simp [unfitScan]
  | _ => simp [unfitScan]

theorem find?_eq_none_iff_name {name : String} :
    slots.find? (·.name == name) = none ↔ name ∉ slotNames slots := by
  simp [slotNames]

/-- Members that are not known are passed over, and the others are read as before. -/
theorem readMembers_prune (hslots : ∀ slot ∈ slots, slot.Stands (change slot.name) (good slot.name))
    {members : Scan.Members} (hmembers : Scan.Members.IsDistinct members) {seen : List String}
    {record : σ} {result : σ × List String}
    (h : readMembers slots room seen record members = .ok result) :
    readMembers slots room seen record
        ((members.filter (hasName (slotNames slots))).map (changeValue change)) = .ok result ∧
      ∀ member ∈ (members.filter (hasName (slotNames slots))).map (changeValue change),
        ∃ name ∈ slotNames slots, member.1 = .ok name ∧ good name member.2 := by
  induction members generalizing seen record with
  | nil => exact ⟨h, List.forall_mem_nil _⟩
  | cons member members ih =>
    obtain ⟨key, value⟩ := member
    have hvalue : value.IsDistinct := hmembers key value List.mem_cons_self
    have hrest : Scan.Members.IsDistinct members := fun key value hmem =>
      hmembers key value (List.mem_cons_of_mem _ hmem)
    rw [readMembers, bind_eq_ok] at h
    obtain ⟨name, hname, h⟩ := h
    obtain rfl := mapError_eq_ok.1 hname
    cases hslot : slots.find? (·.name == name) with
    | none =>
      simp only [hslot, bind_eq_ok] at h
      obtain ⟨_, -, h⟩ := h
      have hunknown : hasName (slotNames slots) (.ok name, value) = false := by
        simpa [hasName] using find?_eq_none_iff_name.1 hslot
      rw [List.filter_cons_of_neg (by simp [hunknown])]
      exact ih hrest h
    | some slot =>
      simp only [hslot] at h
      split at h
      · cases h
      · rename_i hseen
        obtain ⟨after, hread, h⟩ := bind_eq_ok.1 h
        have hmem := List.mem_of_find?_eq_some hslot
        have hown : slot.name = name := by simpa using List.find?_some hslot
        have hknown : name ∈ slotNames slots := hown ▸ List.mem_map_of_mem hmem
        have hkept : hasName (slotNames slots) (.ok name, value) := by simpa [hasName] using hknown
        obtain ⟨hchanged, hgood⟩ := hslots slot hmem hvalue hread
        rw [hown] at hchanged hgood
        obtain ⟨hmore, hall⟩ := ih hrest h
        rw [List.filter_cons_of_pos hkept, List.map_cons]
        constructor
        · rw [changeValue, readMembers]
          refine bind_eq_ok.2 ⟨name, rfl, ?_⟩
          simp only [hslot, if_neg hseen]
          exact bind_eq_ok.2 ⟨after, hchanged, hmore⟩
        · exact List.forall_mem_cons.2 ⟨⟨name, hknown, rfl, hgood⟩, hall⟩

/-- The values of a list that is read as a record are good in their places. -/
theorem readItems_prune {wanted : String} {stop : Option Stop} {count : Nat}
    (hslots : ∀ slot ∈ slots, slot.Stands (change slot.name) (good slot.name))
    {items : List Scan} (hitems : ∀ s ∈ items, s.IsDistinct) {record result : σ}
    (h : readItems wanted stop room count record slots items = .ok result) :
    readItems wanted stop room count record slots
        (List.zipWith change (slotNames slots) items) = .ok result ∧
      stop = none ∧
        List.Forall₂ good ((slotNames slots).take items.length)
          (List.zipWith change (slotNames slots) items) ∧ items.length ≤ slots.length := by
  induction slots generalizing items count record with
  | nil =>
    cases items with
    | nil =>
      cases stop with
      | none => exact ⟨h, rfl, .nil, le_rfl⟩
      | some stop => cases h
    | cons item items =>
      rw [readItems, overlong] at h
      cases h
  | cons slot slots ih =>
    rw [List.forall_mem_cons] at hslots
    cases items with
    | nil =>
      have hstop : stop = none := by
        cases stop with
        | none => rfl
        | some stop => cases h
      exact ⟨h, hstop, .nil, Nat.zero_le _⟩
    | cons item items =>
      rw [List.forall_mem_cons] at hitems
      rw [readItems, bind_eq_ok] at h
      obtain ⟨after, hread, h⟩ := h
      obtain ⟨hchanged, hgood⟩ := hslots.1 hitems.1 hread
      obtain ⟨hmore, hstop, hall, hlength⟩ := ih hslots.2 hitems.2 h
      refine ⟨?_, hstop, .cons hgood hall, Nat.succ_le_succ hlength⟩
      change readItems wanted stop room count record (slot :: slots)
        (change slot.name item :: List.zipWith change (slotNames slots) items) = _
      rw [readItems]
      exact bind_eq_ok.2 ⟨after, hchanged, hmore⟩

/-- A record that is read is read without its unknown members too, and then all are known. -/
theorem readRecord_prune {name : String} {empty result : σ} {s : Scan} (hs : s.IsDistinct)
    (hslots : ∀ slot ∈ slots, slot.Stands (change slot.name) (good slot.name))
    (h : readRecord name slots room empty s = .ok result) :
    readRecord name slots room empty (prune (slotNames slots) change s) = .ok result ∧
      IsRecord (slotNames slots) good (prune (slotNames slots) change s) := by
  cases s with
  | object members stop =>
    cases hs with
    | object hmembers =>
      simp only [readRecord, bind_eq_ok] at h
      obtain ⟨inner, hinner, ⟨record, seen⟩, hread, _, hclose, h⟩ := h
      obtain ⟨hpruned, hall⟩ := readMembers_prune hslots hmembers hread
      have hstop : stop = none := by
        cases stop with
        | none => rfl
        | some stop => cases hclose
      subst hstop
      refine ⟨?_, .object hall⟩
      simp only [prune, readRecord, bind_eq_ok]
      exact ⟨inner, hinner, (record, seen), hpruned, (), hclose, h⟩
  | list items stop =>
    cases hs with
    | list hitems =>
      simp only [readRecord, bind_eq_ok] at h
      obtain ⟨inner, hinner, h⟩ := h
      obtain ⟨hpruned, rfl, hall, hlength⟩ := readItems_prune hslots hitems h
      have hsame : (List.zipWith change (slotNames slots) items).length = items.length := by
        rw [List.length_zipWith, slotNames, List.length_map]
        exact Nat.min_eq_right hlength
      refine ⟨?_, .list (hsame.symm ▸ hall)⟩
      simp only [prune, readRecord, bind_eq_ok]
      exact ⟨inner, hinner, hpruned⟩
  | scalar v => exact absurd h unfitScan_ne_ok
  | broken stop => cases h

end Records

section Strict

variable {names : List String} {change : String → Scan → Scan} {good : String → Scan → Prop}

theorem zipWith_eq_self (hchange : ∀ name s, good name s → change name s = s) {items : List Scan}
    (h : List.Forall₂ good (names.take items.length) items) :
    List.zipWith change names items = items := by
  induction items generalizing names with
  | nil => exact List.zipWith_nil_right
  | cons item items ih =>
    cases names with
    | nil => cases h
    | cons name names =>
      obtain ⟨hitem, hitems⟩ := List.forall₂_cons.1 h
      rw [List.zipWith_cons_cons, hchange name item hitem, ih hitems]

/-- A record with known attributes only is left as it is. -/
theorem prune_eq_self (hchange : ∀ name s, good name s → change name s = s) {s : Scan}
    (h : IsRecord names good s) : prune names change s = s := by
  cases h with
  | @object members hmembers =>
    have hkept : members.filter (hasName names) = members := by
      refine List.filter_eq_self.2 fun member hmember => ?_
      obtain ⟨name, hname, hkey, -⟩ := hmembers member hmember
      simpa [hasName, hkey] using hname
    have hsame : ∀ member ∈ members, changeValue change member = member := by
      intro member hmember
      obtain ⟨key, value⟩ := member
      obtain ⟨name, -, hkey, hvalue⟩ := hmembers _ hmember
      obtain rfl : key = .ok name := hkey
      exact congrArg (Prod.mk _) (hchange name value hvalue)
    rw [prune, hkept, List.map_congr_left hsame, List.map_id']
  | list h => rw [prune, zipWith_eq_self hchange h]

/-- What a text was read as does not hang on what `prune` leaves out, and without that all
attributes are known. They all are from the start exactly if there is nothing to leave out. -/
structure PassesOver {α : Type} (read : Nat → Scan → Except Fault α) (prune : Scan → Scan)
    (strict : Scan → Prop) (text : String) (a : α) : Prop where
  same : read Json.maxDepth (prune (Json.scan text).root) = .ok a
  known : strict (prune (Json.scan text).root)
  whole : strict (Json.scan text).root ↔ prune (Json.scan text).root = (Json.scan text).root

end Strict

/-! ## Values of attributes -/

/-- A word, a number or a text. -/
def IsPlain (s : Scan) : Prop := ∃ j, s = .scalar (.ok j)

theorem isPlain_of_scanText {s : Scan} {text : String} (h : scanText s = .ok text) : IsPlain s := by
  unfold scanText at h
  split at h
  · exact ⟨_, rfl⟩
  · exact absurd h unfitScan_ne_ok

theorem isPlain_of_scanBool {s : Scan} {b : Bool} (h : scanBool s = .ok b) : IsPlain s := by
  unfold scanBool at h
  split at h
  · exact ⟨_, rfl⟩
  · exact absurd h unfitScan_ne_ok

/-- What may be null is null, or is read in its form. -/
theorem scanOptional_cases {α : Type} {read : Scan → Except Fault α} {s : Scan} {v : Option α}
    (h : scanOptional read s = .ok v) : s = .scalar (.ok .null) ∨ ∃ a, read s = .ok a := by
  unfold scanOptional at h
  split at h
  · exact .inl rfl
  · obtain ⟨a, ha, -⟩ := map_eq_ok.1 h
    exact .inr ⟨a, ha⟩

/-- What is read as a tree is one with distinct names. -/
theorem exists_tree_of_scanTree {α : Type} {room : Nat} {read : Json → Except Fault α} {s : Scan}
    {a : α} (hs : s.IsDistinct) (h : scanTree room read s = .ok a) :
    ∃ j, s.toJson room = .ok j ∧ j.Distinct ∧ read j = .ok a := by
  rw [scanTree, bind_eq_ok] at h
  obtain ⟨j, hj, h⟩ := h
  have htree := mapError_eq_ok.1 hj
  exact ⟨j, htree, Json.distinct_of_toJson hs htree, h⟩

/-- What a text was read as was read from its scan, whose values have distinct names. -/
theorem read_of_readWhole {α : Type} {read : Nat → Scan → Except Fault α} {text : String} {a : α}
    (h : readWhole read text = .ok a) :
    read Json.maxDepth (Json.scan text).root = .ok a ∧ (Json.scan text).root.IsDistinct := by
  simp only [readWhole, bind_eq_ok, pure_eq_ok] at h
  obtain ⟨value, hvalue, _, -, rfl⟩ := h
  exact ⟨hvalue, Json.isDistinct_scanFrom (Json.isDistinct_tokens text.toList) trivial
    (List.forall_mem_nil _)⟩

end Wire

/-! ## Searches -/

/-- Null, or a tree with known attributes only. -/
def Condition.IsStrict (s : Scan) : Prop :=
  s = .scalar (.ok .null) ∨ ∃ room j, s.toJson room = .ok j ∧ Condition.AllKnown j

namespace Search

/-- A criterion without the members that it does not know. -/
def pruneSort : Scan → Scan := Wire.prune ["field", "reverse"] keepValue

/-- Criteria without the members that they do not know. -/
def pruneSorts : Scan → Scan
  | .list items stop => .list (items.map pruneSort) stop
  | s => s

/-- The value of an attribute; criteria are without the members that they do not know. -/
def pruneValue (name : String) (s : Scan) : Scan := if name = "sort" then pruneSorts s else s

/-- A search without the members that it and its criteria do not know. -/
def prune : Scan → Scan := Wire.prune ["query", "filter", "sort", "refresh"] pruneValue

/-- A criterion with known attributes only. -/
def IsStrictSort : Scan → Prop := IsRecord ["field", "reverse"] fun _ s => IsPlain s

/-- What the attributes of a search are: conditions and criteria with known attributes only. -/
def IsStrictValue (name : String) (s : Scan) : Prop :=
  match name with
  | "query" | "filter" => Condition.IsStrict s
  | "sort" => ∃ items, s = .list items none ∧ ∀ item ∈ items, IsStrictSort item
  | _ => IsPlain s

/-- A search with known attributes only, in every object of it. -/
def IsStrict : Scan → Prop := IsRecord ["query", "filter", "sort", "refresh"] IsStrictValue

variable {room : Nat} {s : Scan}

theorem isStrict_of_scanCondition {c : Option Condition.Draft} (hs : s.IsDistinct)
    (h : scanCondition room s = .ok c) : Condition.IsStrict s := by
  rcases scanOptional_cases h with rfl | ⟨d, hd⟩
  · exact .inl rfl
  · obtain ⟨j, hj, hdistinct, hread⟩ := exists_tree_of_scanTree hs hd
    exact .inr ⟨room, j, hj, Condition.allKnown_of_ofJson hdistinct hread⟩

theorem scanSort_prune {r : SortRequest} (hs : s.IsDistinct) (h : scanSort room s = .ok r) :
    scanSort room (pruneSort s) = .ok r ∧ IsStrictSort (pruneSort s) := by
  have hslots : ∀ slot ∈ sortSlots, slot.Stands (keepValue slot.name) IsPlain := by
    simp only [sortSlots, List.forall_mem_cons]
    refine ⟨fun _ hread => ⟨hread, ?_⟩, fun _ hread => ⟨hread, ?_⟩, List.forall_mem_nil _⟩
    · obtain ⟨field, hfield, -⟩ := bind_eq_ok.1 hread
      exact isPlain_of_scanText hfield
    · obtain ⟨reverse, hreverse, -⟩ := bind_eq_ok.1 hread
      exact isPlain_of_scanBool hreverse
  exact readRecord_prune hs hslots h

theorem mapM_scanSort_prune {items : List Scan} {rs : List SortRequest}
    (hitems : ∀ s ∈ items, s.IsDistinct) (h : items.mapM (scanSort room) = .ok rs) :
    (items.map pruneSort).mapM (scanSort room) = .ok rs ∧
      ∀ item ∈ items.map pruneSort, IsStrictSort item := by
  induction items generalizing rs with
  | nil => exact ⟨h, List.forall_mem_nil _⟩
  | cons item items ih =>
    rw [List.forall_mem_cons] at hitems
    simp only [List.mapM_cons, bind_eq_ok] at h
    obtain ⟨r, hr, rs, hrs, h⟩ := h
    obtain ⟨hitem, hstrict⟩ := scanSort_prune hitems.1 hr
    obtain ⟨hmore, hall⟩ := ih hitems.2 hrs
    rw [List.map_cons]
    refine ⟨?_, List.forall_mem_cons.2 ⟨hstrict, hall⟩⟩
    simp only [List.mapM_cons, bind_eq_ok]
    exact ⟨r, hitem, rs, hmore, h⟩

theorem scanList_prune {rs : List SortRequest} (hs : s.IsDistinct)
    (h : scanList room scanSort s = .ok rs) :
    scanList room scanSort (pruneSorts s) = .ok rs ∧ IsStrictValue "sort" (pruneSorts s) := by
  cases s with
  | list items stop =>
    cases hs with
    | list hitems =>
      simp only [scanList, bind_eq_ok] at h
      obtain ⟨inner, hinner, values, hvalues, _, hclose, h⟩ := h
      obtain ⟨hpruned, hall⟩ := mapM_scanSort_prune hitems hvalues
      have hstop : stop = none := by
        cases stop with
        | none => rfl
        | some stop => cases hclose
      subst hstop
      refine ⟨?_, _, rfl, hall⟩
      simp only [pruneSorts, scanList, bind_eq_ok]
      exact ⟨inner, hinner, values, hpruned, (), hclose, h⟩
  | scalar v => exact absurd h unfitScan_ne_ok
  | _ => cases h

/-- Each attribute of a search is read as before, and is strict. -/
theorem stands_slots : ∀ slot ∈ slots,
    slot.Stands (pruneValue slot.name) (IsStrictValue slot.name) := by
  simp only [slots, List.forall_mem_cons]
  refine ⟨fun hs hread => ⟨hread, ?_⟩, fun hs hread => ⟨hread, ?_⟩, fun hs hread => ?_,
    fun _ hread => ⟨hread, ?_⟩, List.forall_mem_nil _⟩
  · obtain ⟨query, hquery, -⟩ := bind_eq_ok.1 hread
    exact isStrict_of_scanCondition hs hquery
  · obtain ⟨filter, hfilter, -⟩ := bind_eq_ok.1 hread
    exact isStrict_of_scanCondition hs hfilter
  · obtain ⟨sort, hsort, hafter⟩ := bind_eq_ok.1 hread
    obtain ⟨hpruned, hstrict⟩ := scanList_prune hs hsort
    exact ⟨bind_eq_ok.2 ⟨sort, hpruned, hafter⟩, hstrict⟩
  · obtain ⟨refresh, hrefresh, -⟩ := bind_eq_ok.1 hread
    rcases scanOptional_cases hrefresh with hnull | ⟨b, hb⟩
    · exact ⟨.null, hnull⟩
    · exact isPlain_of_scanBool hb

theorem pruneSorts_eq_self (h : IsStrictValue "sort" s) : pruneSorts s = s := by
  obtain ⟨items, rfl, hitems⟩ := h
  have hsame : ∀ item ∈ items, pruneSort item = item := fun item hitem =>
    prune_eq_self (fun _ _ _ => rfl) (hitems item hitem)
  rw [pruneSorts, List.map_congr_left hsame, List.map_id']

/-- A search with known attributes only is left as it is. -/
theorem prune_eq_self (h : IsStrict s) : prune s = s := by
  refine Wire.prune_eq_self (fun name s hs => ?_) h
  rw [pruneValue]
  split
  · rename_i hname
    subst hname
    exact pruneSorts_eq_self hs
  · rfl

/-- The draft of a scan. -/
def readScan (room : Nat) : Scan → Except Fault Draft :=
  readRecord "struct SearchBuilder" slots room {}

theorem passesOver_of_parse {text : String} {d : Draft} (h : Draft.parse text = .ok d) :
    PassesOver readScan prune IsStrict text d := by
  change readWhole readScan text = .ok d at h
  obtain ⟨hread, hroot⟩ := read_of_readWhole h
  obtain ⟨hsame, hknown⟩ := readRecord_prune hroot stands_slots hread
  exact ⟨hsame, hknown, prune_eq_self, fun hprune => hprune ▸ hknown⟩

end Search

/-! ## Schemas -/

/-- A tree with known attributes only. -/
def Mapper.IsStrict (s : Scan) : Prop := ∃ room j, s.toJson room = .ok j ∧ Mapper.AllKnown j

namespace Schema

/-- A schema without the members that it does not know. -/
def prune : Scan → Scan := Wire.prune ["default_analyzer", "fields"] keepValue

/-- What the attributes of a schema are: mappers with known attributes only. -/
def IsStrictValue (name : String) (s : Scan) : Prop :=
  match name with
  | "fields" => ∃ members, s = .object members none ∧
      ∀ member ∈ members, (∃ field, member.1 = .ok field) ∧ Mapper.IsStrict member.2
  | _ => IsPlain s

/-- A schema with known attributes only, in every object of it. -/
def IsStrict : Scan → Prop := IsRecord ["default_analyzer", "fields"] IsStrictValue

variable {room : Nat} {s : Scan}

theorem isStrict_of_readFieldMembers {members : Scan.Members}
    (hmembers : Scan.Members.IsDistinct members) {done fields : List (String × Mapper.Draft)}
    (h : readFieldMembers room done members = .ok fields) :
    ∀ member ∈ members, (∃ field, member.1 = .ok field) ∧ Mapper.IsStrict member.2 := by
  induction members generalizing done with
  | nil => exact List.forall_mem_nil _
  | cons member members ih =>
    obtain ⟨key, value⟩ := member
    have hvalue : value.IsDistinct := hmembers key value List.mem_cons_self
    have hrest : Scan.Members.IsDistinct members := fun key value hmem =>
      hmembers key value (List.mem_cons_of_mem _ hmem)
    simp only [readFieldMembers, bind_eq_ok] at h
    obtain ⟨field, hfield, d, hd, h⟩ := h
    obtain ⟨j, hj, hdistinct, hread⟩ := exists_tree_of_scanTree hvalue hd
    split at h
    · cases h
    · refine List.forall_mem_cons.2 ⟨⟨⟨field, mapError_eq_ok.1 hfield⟩, ?_⟩, ih hrest h⟩
      exact ⟨room, j, hj, Mapper.allKnown_of_ofJson hdistinct hread⟩

theorem isStrict_of_readFields {fields : List (String × Mapper.Draft)} (hs : s.IsDistinct)
    (h : readFields room s = .ok fields) : IsStrictValue "fields" s := by
  cases s with
  | object members stop =>
    cases hs with
    | object hmembers =>
      simp only [readFields, bind_eq_ok] at h
      obtain ⟨inner, -, fields, hfields, _, hclose, -⟩ := h
      have hstop : stop = none := by
        cases stop with
        | none => rfl
        | some stop => cases hclose
      subst hstop
      exact ⟨members, rfl, isStrict_of_readFieldMembers hmembers hfields⟩
  | scalar v => exact absurd h unfitScan_ne_ok
  | _ => cases h

theorem stands_slots : ∀ slot ∈ slots,
    slot.Stands (keepValue slot.name) (IsStrictValue slot.name) := by
  simp only [slots, List.forall_mem_cons]
  refine ⟨fun _ hread => ⟨hread, ?_⟩, fun hs hread => ⟨hread, ?_⟩, List.forall_mem_nil _⟩
  · obtain ⟨name, hname, -⟩ := bind_eq_ok.1 hread
    rcases scanOptional_cases hname with hnull | ⟨text, htext⟩
    · exact ⟨.null, hnull⟩
    · exact isPlain_of_scanText htext
  · obtain ⟨fields, hfields, -⟩ := bind_eq_ok.1 hread
    exact isStrict_of_readFields hs hfields

/-- A schema with known attributes only is left as it is. -/
theorem prune_eq_self (h : IsStrict s) : prune s = s := Wire.prune_eq_self (fun _ _ _ => rfl) h

/-- The draft of a scan. -/
def readScan (room : Nat) : Scan → Except Fault Draft :=
  readRecord "struct SchemaBuilder" slots room {}

theorem passesOver_of_parse {text : String} {d : Draft} (h : Draft.parse text = .ok d) :
    PassesOver readScan prune IsStrict text d := by
  change readWhole readScan text = .ok d at h
  obtain ⟨hread, hroot⟩ := read_of_readWhole h
  obtain ⟨hsame, hknown⟩ := readRecord_prune hroot stands_slots hread
  exact ⟨hsame, hknown, prune_eq_self, fun hprune => hprune ▸ hknown⟩

end Schema

/-! ## Requests -/

/-- **Only records pass over what they do not know.** A search or a schema that is read is read as
the same without the unknown members of the records, and then every attribute in it is known, at
any depth. Anything else that is wrong with a text is reported as a fault of serialization. -/
theorem Wire.strict_of_parse (text : String) :
    (∀ d, Search.Draft.parse text = .ok d →
        PassesOver Search.readScan Search.prune Search.IsStrict text d) ∧
      (∀ d, Schema.Draft.parse text = .ok d →
        PassesOver Schema.readScan Schema.prune Schema.IsStrict text d) ∧
      (∀ e, (Search.Draft.decode text).result = .error e → e.errorClass = .serialization) ∧
      ∀ e, (Schema.Draft.decode text).result = .error e → e.errorClass = .serialization := by
  refine ⟨fun _ => Search.passesOver_of_parse, fun _ => Schema.passesOver_of_parse, ?_, ?_⟩
  · intro e he
    rw [Search.Draft.decode] at he
    cases h : Search.Draft.parse text with
    | ok d =>
      rw [h] at he
      cases he
    | error fault =>
      rw [h] at he
      cases he
      rfl
  · intro e he
    rw [Schema.Draft.decode] at he
    cases h : Schema.Draft.parse text with
    | ok d =>
      rw [h] at he
      cases he
    | error fault =>
      rw [h] at he
      cases he
      rfl

/-- A search whose filter is misspelled. -/
def sampleMisspelled : String := "\x7b\"filtr\":\x7b\"type\":\"none\"\x7d\x7d"

/-- A schema whose default analyzer is misspelled. -/
def sampleMisnamed : String := "\x7b\"default_analyser\":\"english\",\"fields\":\x7b\x7d\x7d"

theorem scan_sampleMisspelled : (Json.scan sampleMisspelled).root =
    .object [(.ok "filtr", .object [(.ok "type", .scalar (.ok (.text "none")))] none)] none := by
  cbv

theorem scan_sampleMisnamed : (Json.scan sampleMisnamed).root =
    .object [(.ok "default_analyser", .scalar (.ok (.text "english"))),
      (.ok "fields", .object [] none)] none := by
  cbv

theorem parse_sampleMisspelled : Search.Draft.parse sampleMisspelled = .ok {} := by
  cbv

theorem parse_sampleMisnamed : Schema.Draft.parse sampleMisnamed = .ok {} := by
  cbv

/-- The misspelled filter is left out of what is read. -/
theorem Wire.strict_of_parse_misspelled :
    Search.Draft.parse sampleMisspelled = .ok {} ∧
      PassesOver Search.readScan Search.prune Search.IsStrict sampleMisspelled {} :=
  ⟨parse_sampleMisspelled, (Wire.strict_of_parse sampleMisspelled).1 _ parse_sampleMisspelled⟩

/-- A filter that is misspelled is no filter, and a default analyzer that is misspelled is none.
Both texts are read. -/
theorem Wire.unknown_members_read :
    (Search.Draft.parse sampleMisspelled = .ok {} ∧
        ¬Search.IsStrict (Json.scan sampleMisspelled).root) ∧
      Schema.Draft.parse sampleMisnamed = .ok {} ∧
        ¬Schema.IsStrict (Json.scan sampleMisnamed).root := by
  refine ⟨⟨parse_sampleMisspelled, fun h => ?_⟩, parse_sampleMisnamed, fun h => ?_⟩
  · rw [scan_sampleMisspelled] at h
    cases h with
    | object h =>
      obtain ⟨name, hname, hkey, -⟩ := h _ List.mem_cons_self
      cases hkey
      exact absurd hname (by decide)
  · rw [scan_sampleMisnamed] at h
    cases h with
    | object h =>
      obtain ⟨name, hname, hkey, -⟩ := h _ List.mem_cons_self
      cases hkey
      exact absurd hname (by decide)

end ColumnIndex
