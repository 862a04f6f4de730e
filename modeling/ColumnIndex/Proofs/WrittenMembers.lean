import ColumnIndex.Proofs.Json.Reproduced

/-!
# Members of written objects

The members of a written object are those that must be there, and those that are left out unless
they have a value. What is known of each of them carries over to all: that they are legible, that
the keys differ, that their forms are checked, and what their attributes are read as.

## Main definitions

* `Wire.Fits` — a member that is known, and whose value has the form of its attribute.
-/
namespace ColumnIndex

namespace Json

variable {α : Type}

@[simp] theorem rereadMembers_append (ms ns : List (String × Json)) :
    rereadMembers (ms ++ ns) = rereadMembers ms ++ rereadMembers ns := by
  induction ms with
  | nil => rfl
  | cons m ms ih => rw [List.cons_append, rereadMembers, rereadMembers, ih, List.cons_append]

@[simp] theorem rereadMembers_member? (name : String) (write : α → Json) (v : Option α) :
    rereadMembers (Wire.member? name write v)
      = Wire.member? name (fun a => (write a).reread) v := by
  cases v <;> rfl

theorem names_rereadMembers (ms : List (String × Json)) :
    Entries.names (Json.rereadMembers ms) = Entries.names ms := by
  induction ms with
  | nil => rfl
  | cons m ms ih =>
    obtain ⟨name, value⟩ := m
    simp only [Entries.names] at ih
    simp only [Entries.names, Json.rereadMembers, List.map_cons, ih]

theorem membersLegible_append {ms ns : List (String × Json)} :
    MembersLegible (ms ++ ns) ↔ MembersLegible ms ∧ MembersLegible ns := by
  induction ms with
  | nil => simp [MembersLegible]
  | cons m ms ih => rw [List.cons_append, MembersLegible, MembersLegible, ih, and_assoc]

theorem membersLegible_member? {name : String} {write : α → Json} {v : Option α} :
    MembersLegible (Wire.member? name write v) ↔ ∀ a ∈ v, (write a).Legible := by
  cases v with
  | none => simp [Wire.member?, MembersLegible]
  | some a => simp [Wire.member?, MembersLegible]

end Json

namespace Wire

variable {α β : Type}

/-! ## Keys -/

theorem names_member?_sublist (name : String) (write : α → Json) (v : Option α) :
    (Entries.names (member? name write v)).Sublist [name] := by
  cases v with
  | none => exact List.nil_sublist _
  | some a => exact List.Sublist.refl _

@[simp] theorem mem_names_member? {key name : String} {write : α → Json} {v : Option α} :
    key ∈ Entries.names (member? name write v) ↔ key = name ∧ v.isSome := by
  cases v <;> simp [member?, Entries.names]

theorem forall_mem_member? {name : String} {write : α → Json} {v : Option α}
    {p : String × Json → Prop} :
    (∀ m ∈ member? name write v, p m) ↔ ∀ a ∈ v, p (name, write a) := by
  cases v with
  | none => simp [member?]
  | some a => simp [member?]

/-! ## Looking up -/

@[simp] theorem lookup_append (key : String) (ms ns : List (String × Json)) :
    (ms ++ ns).lookup key = (ms.lookup key).or (ns.lookup key) := by
  induction ms with
  | nil => rfl
  | cons m ms ih =>
    obtain ⟨name, value⟩ := m
    rw [List.cons_append, List.lookup_cons, List.lookup_cons, ih]
    cases key == name with
    | true => rfl
    | false => rfl

@[simp] theorem lookup_member?_self (name : String) (write : α → Json) (v : Option α) :
    (member? name write v).lookup name = v.map write := by
  cases v <;> simp [member?]

@[simp] theorem lookup_member?_of_ne {key name : String} (h : key ≠ name) (write : α → Json)
    (v : Option α) : (member? name write v).lookup key = none := by
  cases v with
  | none => rfl
  | some a =>
    have hkey : (key == name) = false := beq_false_of_ne h
    simp [member?, List.lookup_cons, hkey]

/-- An attribute that must be there is read from its member. -/
theorem get_required {name : String} {read : Reader α} {ms : List (String × Json)} {j : Json}
    {a : α} (hlookup : ms.lookup name = some j) (hread : read j = .ok a) :
    (Attribute.required name read).get ms = .ok a := by
  rw [Attribute.get, Attribute.required]
  simp only [hlookup, hread]

/-- An attribute that may be missing is read from its member, if that is there. -/
theorem get_optional {name : String} {read : Reader β} {ms : List (String × Json)}
    {write : α → Json} {v : Option α} {f : α → β} (hlookup : ms.lookup name = v.map write)
    (hread : ∀ a ∈ v, readOptional read (write a) = .ok (some (f a))) :
    (Attribute.optional name read).get ms = .ok (v.map f) := by
  rw [Attribute.get, Attribute.optional]
  cases v with
  | none => simp [hlookup]
  | some a => simp [hlookup, hread a rfl]

/-- An attribute that may be missing is read as it was written. -/
theorem get_written {name : String} {read : Reader α} {ms : List (String × Json)}
    {write : α → Json} {v : Option α} (hlookup : ms.lookup name = v.map write)
    (hread : ∀ a, readOptional read (write a) = .ok (some a)) :
    (Attribute.optional name read).get ms = .ok v := by
  have h := get_optional (f := id) hlookup fun a _ => hread a
  rwa [Option.map_id, id] at h

/-- A value that is not null is read in its form. -/
theorem readOptional_of_ne {read : Reader α} {j : Json} {a : α} (hj : j ≠ .null)
    (h : read j = .ok a) : readOptional read j = .ok (some a) := by
  cases j with
  | null => exact absurd rfl hj
  | _ =>
    rw [readOptional, h, Except.map]
    simp

theorem readOptional_bool (b : Bool) : readOptional readBool (.bool b) = .ok (some b) := rfl

theorem readOptional_text (s : String) : readOptional readText (.text s) = .ok (some s) := rfl

theorem readOptional_byte (n : UInt8) :
    readOptional readByte (natJson n.toNat).reread = .ok (some n) := by
  refine readOptional_of_ne ?_ (readByte_reread n)
  have hn := n.toNat_lt
  rw [natJson, Json.reread_whole (by omega) (by omega)]
  simp

theorem readOptional_word (n : UInt32) :
    readOptional readWord (natJson n.toNat).reread = .ok (some n) := by
  refine readOptional_of_ne ?_ (readWord_reread n)
  have hn := n.toNat_lt
  rw [natJson, Json.reread_whole (by omega) (by omega)]
  simp

theorem readOptional_single {x : Single} (h : x.Reproduced) :
    readOptional readSingle (singleJson x).reread = .ok (some x.reread) := by
  refine readOptional_of_ne ?_ (readSingle_reread h)
  obtain ⟨y, hy, -⟩ := h.exists_reread_number
  rw [singleJson, hy]
  simp

/-! ## Checks -/

/-- The member is known, and its value has the form of its attribute. -/
def Fits (checks : List (String × Reader Unit)) (m : String × Json) : Prop :=
  m.1 = "type" ∧ checks.lookup m.1 = none ∨
    ∃ check, checks.lookup m.1 = some check ∧ check m.2 = .ok ()

variable {checks : List (String × Reader Unit)} {ms : List (String × Json)}

/-- Members that pass the checks of their names pass all checks. -/
theorem checkAll_of_forall
    (h : ∀ m ∈ ms, ∀ check, checks.lookup m.1 = some check → check m.2 = .ok ()) :
    checkAll checks ms = .ok () := by
  induction ms with
  | nil => rfl
  | cons m ms ih =>
    obtain ⟨name, value⟩ := m
    rw [List.forall_mem_cons] at h
    rw [checkAll]
    cases hcheck : checks.lookup name with
    | none => exact ih h.2
    | some check =>
      simp only [h.1 check hcheck]
      exact ih h.2

/-- A member of the right form passes the check of its name. -/
theorem Fits.check_eq_ok {m : String × Json} {check : Reader Unit} (h : Fits checks m)
    (hcheck : checks.lookup m.1 = some check) : check m.2 = .ok () := by
  rcases h with ⟨-, hnone⟩ | ⟨other, hother, hvalue⟩
  · rw [hnone] at hcheck
    cases hcheck
  · rw [hother] at hcheck
    cases hcheck
    exact hvalue

/-- Members with the right forms pass the checks. -/
theorem checkAll_eq_ok (h : ∀ m ∈ ms, Fits checks m) : checkAll checks ms = .ok () :=
  checkAll_of_forall fun m hm _ => (h m hm).check_eq_ok

theorem mem_names_of_lookup {name : String} {check : Reader Unit}
    (h : checks.lookup name = some check) : name ∈ checks.map (·.1) := by
  by_contra hname
  rw [Entries.lookup_eq_none_iff.2 hname] at h
  cases h

/-- Members with the right forms are known. -/
theorem unknown?_eq_none {names : List String} (hnames : ∀ name ∈ checks.map (·.1), name ∈ names)
    (h : ∀ m ∈ ms, Fits checks m) : unknown? names ms = none := by
  rw [unknown?, Option.map_eq_none_iff, List.find?_eq_none]
  intro m hm
  rcases h m hm with ⟨htype, -⟩ | ⟨check, hcheck, -⟩
  · simp [htype]
  · have hname := hnames m.1 (mem_names_of_lookup hcheck)
    simp [hname]

theorem check_eq_ok {a : Attribute α} {j : Json} {x : α} (h : a.read j = .ok x) :
    a.check.2 j = .ok () := by
  change (a.read j).map (fun _ => ()) = .ok ()
  rw [h, Except.map]

theorem fits_of_read {checks : List (String × Reader Unit)} (a : Attribute α)
    {j : Json} {x : α} (hcheck : checks.lookup a.name = some a.check.2) (hread : a.read j = .ok x) :
    Fits checks (a.name, j) :=
  .inr ⟨a.check.2, hcheck, check_eq_ok hread⟩

end Wire

end ColumnIndex
