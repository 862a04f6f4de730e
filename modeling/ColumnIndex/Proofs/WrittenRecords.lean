import ColumnIndex.Proofs.WrittenMembers
import ColumnIndex.Wire.Record

/-!
# Written records are read back

A record is read from the scan of its text, one attribute after the other. From the scan of a
written tree a reader gets back what was written, unless the tree is nested too deep; for a record
this follows from the same of the attributes.

## Main definitions

* `Wire.Regains` — a reader that gets a value back from the scan of a written tree.

Main statement: what is written is read back from its text, unless it is nested too deep.
-/
namespace ColumnIndex.Wire

open Json (Scan ifShallow ifShallow_zero ifShallow_succ_zero ifShallow_succ_succ ifShallow_map
  ifShallow_mapError ifShallow_bind ifShallow_bind_ok mirror memberMirrors memberDepth listDepth)

variable {α β σ : Type} {room : Nat}

/-- The reader gets the value from the scan of the tree, unless that is nested too deep. -/
def Regains (read : Nat → Scan → Except Fault α) (j : Json) (a : α) : Prop :=
  ∀ room, read room j.mirror = ifShallow (.malformed .tooDeep) j.depth room a

/-! ## Values -/

theorem regains_bool (b : Bool) : Regains (fun _ => scanBool) (.bool b) b :=
  fun _ => (ifShallow_zero b).symm

/-- What is read becomes part of something. -/
theorem Regains.map {read : Nat → Scan → Except Fault α} {j : Json} {a : α}
    (h : Regains read j a) (f : α → β) :
    Regains (fun room s => do pure (f (← read room s))) j (f a) := by
  intro room
  change (read room j.mirror >>= _) = _
  rw [h room]
  exact ifShallow_bind_ok rfl

/-- A tree is read as a whole. -/
theorem regains_tree {read : Json → Except Fault α} {j : Json} {a : α} (hj : j.Legible)
    (hread : read j.reread = .ok a) : Regains (fun room => scanTree room read) j a := by
  intro room
  change (j.mirror.toJson room).mapError .malformed >>= read = _
  rw [Json.toJson_mirror hj, ifShallow_mapError]
  exact ifShallow_bind_ok hread

/-- What is not null is read in its form. -/
theorem regains_optional {read : Nat → Scan → Except Fault α} {j : Json} {a : α}
    (hj : j.mirror ≠ .scalar (.ok .null)) (hread : Regains read j a) :
    Regains (fun room => scanOptional (read room)) j (some a) := by
  intro room
  have hsome : scanOptional (read room) j.mirror = (read room j.mirror).map some := by
    rw [scanOptional]
    exact hj
  change scanOptional (read room) j.mirror = _
  rw [hsome, hread room, ifShallow_map]

/-- The items of a list are read one after the other. -/
theorem mapM_itemMirrors {read : Nat → Scan → Except Fault β} {write : α → Json} {f : α → β}
    {as : List α} (hread : ∀ a ∈ as, Regains read (write a) (f a)) :
    (Json.itemMirrors (as.map write)).mapM (read room)
      = ifShallow (.malformed .tooDeep) (listDepth (as.map write)) room (as.map f) := by
  induction as with
  | nil => exact (ifShallow_zero _).symm
  | cons a as ih =>
    rw [List.forall_mem_cons] at hread
    rw [List.map_cons, Json.itemMirrors, List.mapM_cons, hread.1 room]
    refine ifShallow_bind ?_
    rw [ih hread.2]
    exact ifShallow_bind_ok rfl

theorem regains_list {read : Nat → Scan → Except Fault β} {write : α → Json} {f : α → β}
    {as : List α} (hread : ∀ a ∈ as, Regains read (write a) (f a)) :
    Regains (fun room => scanList room read) (.list (as.map write)) (as.map f) := by
  intro room
  rw [mirror, Json.depth]
  cases room with
  | zero =>
    rw [ifShallow_succ_zero]
    rfl
  | succ room =>
    change ((Json.itemMirrors (as.map write)).mapM (read room) >>= _) = _
    rw [ifShallow_succ_succ, mapM_itemMirrors hread]
    exact ifShallow_bind_ok rfl

/-! ## Records -/

variable {slots : List (Slot σ)} {seen : List String} {record after : σ}

/-- The member of a known attribute, if it was written, is read as that attribute. -/
theorem readMembers_member? {name : String} {write : α → Json} {v : Option α} {slot : Slot σ}
    {ms : List (String × Json)} {result : σ × List String}
    (hslot : slots.find? (·.name == name) = some slot) (hseen : name ∉ seen)
    (hnone : v = none → after = record)
    (hsome : ∀ a ∈ v, Regains (fun room => slot.read room record) (write a) after)
    (hmore : readMembers slots room (Entries.names (member? name write v) ++ seen) after
      (memberMirrors ms) = ifShallow (.malformed .tooDeep) (memberDepth ms) room result) :
    readMembers slots room seen record (memberMirrors (member? name write v ++ ms))
      = ifShallow (.malformed .tooDeep) (memberDepth (member? name write v ++ ms)) room result := by
  cases v with
  | none =>
    rw [hnone rfl] at hmore
    exact hmore
  | some a =>
    change readMembers slots room seen record ((.ok name, (write a).mirror) :: memberMirrors ms)
      = ifShallow _ (max (write a).depth (memberDepth ms)) room result
    have hvalue : slot.read room record (write a).mirror
        = ifShallow (.malformed .tooDeep) (write a).depth room after := hsome a rfl room
    have hname : Except.mapError Fault.malformed (.ok name) = .ok name := rfl
    rw [readMembers, hname, Outcome.ok_bind, hslot]
    simp only [if_neg hseen]
    rw [hvalue]
    exact ifShallow_bind hmore

/-- A record is read from the object that has its members. -/
theorem regains_record {name : String} {ms : List (String × Json)} {empty : σ}
    (hread : ∀ room, ∃ seen, readMembers slots room [] empty (memberMirrors ms)
      = ifShallow (.malformed .tooDeep) (memberDepth ms) room (record, seen) ∧
        ∀ slot ∈ slots, slot.required → slot.name ∈ seen) :
    Regains (fun room => readRecord name slots room empty) (.object ms) record := by
  intro room
  rw [mirror, Json.depth]
  cases room with
  | zero =>
    rw [ifShallow_succ_zero]
    rfl
  | succ room =>
    rw [ifShallow_succ_succ]
    obtain ⟨seen, hmembers, hseen⟩ := hread room
    have hfind : slots.find? (fun slot => slot.required && !seen.contains slot.name) = none := by
      rw [List.find?_eq_none]
      intro slot hslot hmissing
      rw [Bool.and_eq_true, Bool.not_eq_true', List.contains_eq_mem, decide_eq_false_iff_not]
        at hmissing
      exact hmissing.2 (hseen slot hslot hmissing.1)
    change (readMembers slots room [] empty (memberMirrors ms) >>= _) = _
    rw [hmembers]
    refine ifShallow_bind_ok ?_
    simp only [hfind]
    rfl

/-! ## Texts -/

/-- What is written is read back from its text, unless it is nested too deep. -/
theorem readWhole_compact {read : Nat → Scan → Except Fault α} {j : Json} {a : α}
    (hj : j.Legible) (hread : Regains read j a) :
    readWhole read j.compact
      = if j.depth ≤ Json.maxDepth then .ok a else .error (.malformed .tooDeep) := by
  rw [readWhole, Json.scan_compact hj.scannable]
  change (read Json.maxDepth j.mirror >>= _) = _
  rw [hread]
  exact ifShallow_bind_ok rfl

end ColumnIndex.Wire
