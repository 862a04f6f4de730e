import ColumnIndex.Metrics.Recorder
import Mathlib.Algebra.GroupWithZero.Nat
import Mathlib.Algebra.Order.BigOperators.Group.List
import Mathlib.Data.String.Basic

/-!
# Totals of events

Counters that start at zero hold the exact totals of the events, as far as these are below the
limit of sixty-four bits. The invariant behind it is that the fields stand in the order of their
names, so that the entry of a field is found where it was put.

## Main definitions

* `Counter`, `FieldCounter` — the names of the counters of all operations and of a field.
* `Event.gain`, `Event.fieldGain` — what an event adds to a counter.
* `Event.total`, `Event.fieldTotal` — what events add to a counter, without a limit.

Main statements: `Counters.get_countAll`, `Counters.get_field_countAll`,
`Counters.sum_fields_countAll`.
-/
namespace ColumnIndex

/-! ## Limits -/

/-- The greatest number that a counter holds. -/
def counterLimit : Nat := 2 ^ 64 - 1

theorem saturatingAdd_min (a b : Nat) :
    saturatingAdd (min a counterLimit) b = min (a + b) counterLimit := by
  unfold saturatingAdd counterLimit
  omega

theorem saturatingAdd_of_lt {a b : Nat} (h : a + b < 2 ^ 64) : saturatingAdd a b = a + b := by
  unfold saturatingAdd
  omega

theorem min_counterLimit_of_lt {a : Nat} (h : a < 2 ^ 64) : min a counterLimit = a := by
  unfold counterLimit
  omega

/-! ## Names of counters -/

/-- The counters of all operations. -/
inductive Counter
  | schemasBuilt
  | mappersBuilt
  | fieldsMaterialized
  | coercionsRejected
  | queriesCompiled
  | nodesCompiled
  | compilesRejected
  | decoded (kind : DecodeKind)

/-- What a counter of all operations shows. -/
def OperationCounters.get (c : OperationCounters) : Counter → Nat
  | .schemasBuilt => c.schemasBuilt
  | .mappersBuilt => c.mappersBuilt
  | .fieldsMaterialized => c.fieldsMaterialized
  | .coercionsRejected => c.coercionsRejected
  | .queriesCompiled => c.queriesCompiled
  | .nodesCompiled => c.nodesCompiled
  | .compilesRejected => c.compilesRejected
  | .decoded .condition => c.conditionsDecoded
  | .decoded .mapper => c.mappersDecoded
  | .decoded .schema => c.schemasDecoded
  | .decoded .search => c.searchesDecoded

/-- The counters of one field. -/
inductive FieldCounter
  | rowsMapped
  | fieldsMaterialized
  | coercionsRejected

/-- What a counter of a field shows. -/
def FieldCounters.get (c : FieldCounters) : FieldCounter → Nat
  | .rowsMapped => c.rowsMapped
  | .fieldsMaterialized => c.fieldsMaterialized
  | .coercionsRejected => c.coercionsRejected

/-! ## What events add -/

namespace Event

/-- What an event adds to a counter of all operations. -/
def gain : Event → Counter → Nat
  | schemaBuilt _, .schemasBuilt => 1
  | schemaBuilt fields, .mappersBuilt => fields
  | fieldsMaterialized _ count, .fieldsMaterialized => count
  | coercionRejected _, .coercionsRejected => 1
  | queryCompiled _, .queriesCompiled => 1
  | queryCompiled nodes, .nodesCompiled => nodes
  | compileRejected, .compilesRejected => 1
  | jsonDecoded kind, .decoded counted => if kind = counted then 1 else 0
  | _, _ => 0

/-- The field that an event is about. -/
def field? : Event → Option String
  | fieldsMaterialized field _ => some field
  | coercionRejected field => some field
  | _ => none

/-- What an event adds to a counter of the field that it is about. -/
def fieldGain : Event → FieldCounter → Nat
  | fieldsMaterialized _ _, .rowsMapped => 1
  | fieldsMaterialized _ count, .fieldsMaterialized => count
  | coercionRejected _, .coercionsRejected => 1
  | _, _ => 0

/-- What an event adds to a counter of the field with a name. -/
def fieldGainOf (name : String) (k : FieldCounter) (e : Event) : Nat :=
  if e.field? = some name then e.fieldGain k else 0

/-- What events add to a counter of all operations, without a limit. -/
def total (k : Counter) (events : List Event) : Nat := (events.map fun e => e.gain k).sum

/-- What events add to a counter of the field with a name, without a limit. -/
def fieldTotal (name : String) (k : FieldCounter) (events : List Event) : Nat :=
  (events.map (fieldGainOf name k)).sum

@[simp] theorem total_nil (k : Counter) : total k [] = 0 := rfl

@[simp] theorem total_cons (k : Counter) (e : Event) (events : List Event) :
    total k (e :: events) = e.gain k + total k events := rfl

@[simp] theorem total_append (k : Counter) (as bs : List Event) :
    total k (as ++ bs) = total k as + total k bs := by
  simp [total]

@[simp] theorem fieldTotal_nil (name : String) (k : FieldCounter) :
    fieldTotal name k [] = 0 := rfl

@[simp] theorem fieldTotal_cons (name : String) (k : FieldCounter) (e : Event)
    (events : List Event) :
    fieldTotal name k (e :: events) = fieldGainOf name k e + fieldTotal name k events := rfl

@[simp] theorem fieldTotal_append (name : String) (k : FieldCounter) (as bs : List Event) :
    fieldTotal name k (as ++ bs) = fieldTotal name k as + fieldTotal name k bs := by
  simp [fieldTotal]

/-- A field has no more than all fields together. -/
theorem fieldTotal_le (name : String) (k : FieldCounter) (events : List Event) :
    fieldTotal name k events ≤ (events.map fun e => e.fieldGain k).sum := by
  refine List.sum_le_sum fun e _ => ?_
  unfold fieldGainOf
  split
  · exact le_rfl
  · exact Nat.zero_le _

end Event

/-! ## Counters of all operations -/

namespace Counters

theorem countAll_cons (c : Counters) (e : Event) (events : List Event) :
    c.countAll (e :: events) = (c.count e).countAll events := rfl

theorem get_countOperation {c : OperationCounters} {k : Counter} (h : c.get k ≤ counterLimit)
    (e : Event) : (countOperation c e).get k = saturatingAdd (c.get k) (e.gain k) := by
  have hzero : saturatingAdd (c.get k) 0 = c.get k := min_eq_left h
  cases e with
  | jsonDecoded kind =>
    cases kind <;> rcases k with _ | _ | _ | _ | _ | _ | _ | (_ | _ | _ | _) <;>
      first | rfl | exact hzero.symm
  | _ =>
    rcases k with _ | _ | _ | _ | _ | _ | _ | (_ | _ | _ | _) <;>
      first | rfl | exact hzero.symm

theorem get_countAll_of_get {c : Counters} {k : Counter} {n : Nat}
    (h : c.operations.get k = min n counterLimit) (events : List Event) :
    (c.countAll events).operations.get k = min (n + Event.total k events) counterLimit := by
  induction events generalizing c n with
  | nil => exact h
  | cons e events ih =>
    have hstep : (c.count e).operations.get k = min (n + e.gain k) counterLimit := by
      rw [count, get_countOperation (h ▸ min_le_right _ _), h, saturatingAdd_min]
    rw [countAll_cons, ih hstep, Event.total_cons, Nat.add_assoc]

/-- Counters that start at zero show the totals, up to the limit. -/
theorem get_countAll (k : Counter) (events : List Event) :
    (Counters.countAll {} events).operations.get k = min (Event.total k events) counterLimit := by
  have hzero : ({} : Counters).operations.get k = min 0 counterLimit := by
    rcases k with _ | _ | _ | _ | _ | _ | _ | (_ | _ | _ | _) <;> rfl
  simpa using get_countAll_of_get hzero events

/-! ## Counters of fields -/

/-- The counters of a field after an event that is about it. -/
def countFieldOf (e : Event) (c : FieldCounters) : FieldCounters :=
  match e with
  | .fieldsMaterialized _ count =>
    { c with
      rowsMapped := saturatingAdd c.rowsMapped 1
      fieldsMaterialized := saturatingAdd c.fieldsMaterialized count }
  | .coercionRejected _ => { c with coercionsRejected := saturatingAdd c.coercionsRejected 1 }
  | _ => c

theorem countField_eq (fields : List (String × FieldCounters)) (e : Event) :
    countField fields e = match e.field? with
      | some field => update (countFieldOf e) field fields
      | none => fields := by
  cases e <;> rfl

/-- The counters of an event, or those of before where it adds nothing. -/
theorem get_countFieldOf (e : Event) (c : FieldCounters) (k : FieldCounter) :
    (countFieldOf e c).get k = saturatingAdd (c.get k) (e.fieldGain k) ∨
      e.fieldGain k = 0 ∧ (countFieldOf e c).get k = c.get k := by
  cases e <;> cases k <;> first | exact .inl rfl | exact .inr ⟨rfl, rfl⟩

/-- The fields stand in the order of their names, each once. -/
def Ordered (fields : List (String × FieldCounters)) : Prop :=
  fields.Pairwise fun a b => a.1 < b.1

section Update

variable {change : FieldCounters → FieldCounters} {field name : String}
  {fields : List (String × FieldCounters)}

theorem mem_update {entry : String × FieldCounters} (h : entry ∈ update change field fields) :
    entry.1 = field ∨ entry ∈ fields := by
  induction fields with
  | nil =>
    obtain rfl := List.mem_singleton.1 h
    exact .inl rfl
  | cons head fields ih =>
    obtain ⟨first, c⟩ := head
    rw [update] at h
    split at h
    · rename_i heq
      rcases List.mem_cons.1 h with rfl | h
      · exact .inl heq
      · exact .inr (List.mem_cons_of_mem _ h)
    · split at h
      · rcases List.mem_cons.1 h with rfl | h
        · exact .inl rfl
        · exact .inr h
      · rcases List.mem_cons.1 h with rfl | h
        · exact .inr List.mem_cons_self
        · exact (ih h).imp id (List.mem_cons_of_mem _)

theorem ordered_update (h : Ordered fields) : Ordered (update change field fields) := by
  induction fields with
  | nil => exact List.pairwise_singleton _ _
  | cons head fields ih =>
    obtain ⟨first, c⟩ := head
    obtain ⟨hfirst, hrest⟩ := List.pairwise_cons.1 h
    rw [update]
    split
    · exact List.pairwise_cons.2 ⟨hfirst, hrest⟩
    · rename_i hne
      split
      · rename_i hlt
        refine List.pairwise_cons.2 ⟨fun entry hentry => ?_, h⟩
        rcases List.mem_cons.1 hentry with rfl | hentry
        · exact hlt
        · exact hlt.trans (hfirst entry hentry)
      · rename_i hnlt
        refine List.pairwise_cons.2 ⟨fun entry hentry => ?_, ih hrest⟩
        rcases mem_update hentry with hname | hentry
        · rw [hname]
          exact lt_of_le_of_ne (not_lt.1 hnlt) hne
        · exact hfirst entry hentry

theorem lookup_eq_none_of_lt (h : ∀ entry ∈ fields, name < entry.1) :
    fields.lookup name = none := by
  rw [List.lookup_eq_none_iff]
  intro entry hentry
  simpa using (h entry hentry).ne

/-- The entry of the field is changed, and no other. -/
theorem lookup_update (h : Ordered fields) :
    (update change field fields).lookup name =
      if name = field then some (change ((fields.lookup field).getD {}))
      else fields.lookup name := by
  induction fields with
  | nil =>
    by_cases hname : name = field
    · simp [update, hname]
    · simp [update, hname, List.lookup_cons, beq_eq_false_iff_ne.2 hname]
  | cons head fields ih =>
    obtain ⟨first, c⟩ := head
    obtain ⟨hfirst, hrest⟩ := List.pairwise_cons.1 h
    rw [update]
    split
    · rename_i heq
      subst heq
      by_cases hname : name = first
      · simp [hname]
      · simp [hname, List.lookup_cons, beq_eq_false_iff_ne.2 hname]
    · rename_i hne
      split
      · rename_i hlt
        have hnone : ((first, c) :: fields).lookup field = none := by
          refine lookup_eq_none_of_lt fun entry hentry => ?_
          rcases List.mem_cons.1 hentry with rfl | hentry
          · exact hlt
          · exact hlt.trans (hfirst entry hentry)
        rw [List.lookup_cons, hnone]
        by_cases hname : name = field
        · simp [hname]
        · simp [hname, beq_eq_false_iff_ne.2 hname]
      · have hfield : ((first, c) :: fields).lookup field = fields.lookup field := by
          simp [List.lookup_cons, beq_eq_false_iff_ne.2 (Ne.symm hne)]
        rw [List.lookup_cons, hfield, ih hrest, List.lookup_cons]
        by_cases hname : name = first
        · simp [hname, hne]
        · simp [beq_eq_false_iff_ne.2 hname]

end Update

theorem ordered_countField {fields : List (String × FieldCounters)} (h : Ordered fields)
    (e : Event) : Ordered (countField fields e) := by
  rw [countField_eq]
  split
  · exact ordered_update h
  · exact h

theorem field_count {c : Counters} (h : Ordered c.fields) (e : Event) (name : String) :
    (c.count e).field name =
      if e.field? = some name then countFieldOf e (c.field name) else c.field name := by
  rw [field, count, countField_eq]
  cases hfield : e.field? with
  | none => simp [field]
  | some f =>
    simp only [lookup_update h, Option.some.injEq]
    by_cases hname : name = f
    · simp [hname, field]
    · simp [hname, Ne.symm hname, field]

theorem get_field_count {c : Counters} (h : Ordered c.fields) {name : String} {k : FieldCounter}
    (hlimit : (c.field name).get k ≤ counterLimit) (e : Event) :
    ((c.count e).field name).get k =
      saturatingAdd ((c.field name).get k) (e.fieldGainOf name k) := by
  have hzero : saturatingAdd ((c.field name).get k) 0 = (c.field name).get k := min_eq_left hlimit
  rw [field_count h, Event.fieldGainOf]
  split
  · rcases get_countFieldOf e (c.field name) k with hgain | ⟨hgain, hget⟩
    · exact hgain
    · rw [hgain, hget, hzero]
  · exact hzero.symm

theorem get_field_countAll_of_get {c : Counters} (hordered : Ordered c.fields) {name : String}
    {k : FieldCounter} {n : Nat} (h : (c.field name).get k = min n counterLimit)
    (events : List Event) :
    ((c.countAll events).field name).get k =
      min (n + Event.fieldTotal name k events) counterLimit := by
  induction events generalizing c n with
  | nil => exact h
  | cons e events ih =>
    have hstep : ((c.count e).field name).get k = min (n + e.fieldGainOf name k) counterLimit := by
      rw [get_field_count hordered (h ▸ min_le_right _ _), h, saturatingAdd_min]
    rw [countAll_cons, ih (ordered_countField hordered e) hstep, Event.fieldTotal_cons,
      Nat.add_assoc]

/-- The counters of a field that start at zero show the totals of the field, up to the limit. -/
theorem get_field_countAll (name : String) (k : FieldCounter) (events : List Event) :
    ((Counters.countAll {} events).field name).get k =
      min (Event.fieldTotal name k events) counterLimit := by
  have hordered : Ordered ({} : Counters).fields := List.Pairwise.nil
  have hzero : (({} : Counters).field name).get k = min 0 counterLimit := by cases k <;> rfl
  simpa using get_field_countAll_of_get hordered hzero events

/-! ## Sums over the fields -/

/-- The sum of a counter over all fields. -/
def fieldSum (k : FieldCounter) (fields : List (String × FieldCounters)) : Nat :=
  (fields.map fun entry => entry.2.get k).sum

@[simp] theorem fieldSum_cons (k : FieldCounter) (entry : String × FieldCounters)
    (fields : List (String × FieldCounters)) :
    fieldSum k (entry :: fields) = entry.2.get k + fieldSum k fields := rfl

/-- The sum grows by what the entry of the field gains. -/
theorem fieldSum_update {change : FieldCounters → FieldCounters} {k : FieldCounter} {n : Nat}
    (hchange : ∀ c, c.get k + n < 2 ^ 64 → (change c).get k = c.get k + n) (field : String)
    (fields : List (String × FieldCounters)) (h : fieldSum k fields + n < 2 ^ 64) :
    fieldSum k (update change field fields) = fieldSum k fields + n := by
  have hnew : (change {}).get k = n := by
    have hzero : (({} : FieldCounters).get k) = 0 := by cases k <;> rfl
    rw [hchange {} (by omega), hzero, Nat.zero_add]
  induction fields with
  | nil =>
    change (change {}).get k + 0 = 0 + n
    omega
  | cons entry fields ih =>
    obtain ⟨first, c⟩ := entry
    simp only [fieldSum_cons] at h
    rw [update]
    split
    · simp only [fieldSum_cons]
      rw [hchange c (by omega)]
      omega
    · split
      · simp only [fieldSum_cons]
        rw [hnew]
        omega
      · simp only [fieldSum_cons]
        rw [ih (by omega)]
        omega

/-- The sum over the fields after events, if it stays below the limit. -/
theorem fieldSum_countAll {c : Counters} {k : FieldCounter} (events : List Event)
    (h : fieldSum k c.fields + (events.map fun e => e.fieldGain k).sum < 2 ^ 64) :
    fieldSum k (c.countAll events).fields =
      fieldSum k c.fields + (events.map fun e => e.fieldGain k).sum := by
  induction events generalizing c with
  | nil => rfl
  | cons e events ih =>
    rw [List.map_cons, List.sum_cons] at h
    have hstep : fieldSum k (c.count e).fields = fieldSum k c.fields + e.fieldGain k := by
      rw [count, countField_eq]
      cases hfield : e.field? with
      | none =>
        have hgain : e.fieldGain k = 0 := by cases e <;> first | rfl | cases hfield
        simp [hgain]
      | some field =>
        refine fieldSum_update (fun c' hc' => ?_) field c.fields (by omega)
        rcases get_countFieldOf e c' k with hget | ⟨hgain, hget⟩
        · rw [hget, saturatingAdd_of_lt hc']
        · rw [hget, hgain, Nat.add_zero]
    rw [countAll_cons, ih (by omega), hstep, List.map_cons, List.sum_cons, Nat.add_assoc]

/-- The counters of the fields add up to the total of the events, if that is below the limit. -/
theorem sum_fields_countAll {k : FieldCounter} (events : List Event)
    (h : (events.map fun e => e.fieldGain k).sum < 2 ^ 64) :
    fieldSum k (Counters.countAll {} events).fields = (events.map fun e => e.fieldGain k).sum := by
  have hzero : fieldSum k ({} : Counters).fields = 0 := rfl
  rw [fieldSum_countAll events (by omega), hzero, Nat.zero_add]

end Counters

/-! ## Recorders -/

/-- Without an open sink all events are counted. -/
theorem Recorder.recordAll_of_sinks {r : Recorder} (h : r.sinks = []) (events : List Event) :
    r.recordAll events = ⟨r.counters.countAll events, []⟩ := by
  induction events generalizing r with
  | nil =>
    cases r
    subst h
    rfl
  | cons e events ih =>
    have hstep : r.record e = ⟨r.counters.count e, []⟩ := by
      cases r
      subst h
      rfl
    rw [recordAll, List.foldl_cons, hstep]
    exact ih rfl

end ColumnIndex
