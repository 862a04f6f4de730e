import Mathlib.Data.List.Forall2

/-!
# Outcomes of steps

Steps that may fail come one after the other. All of them succeed, or the first one that fails
gives the fault. These lemmas read a step off the outcome of the whole.
-/
namespace ColumnIndex.Outcome

variable {ε δ α β : Type}

theorem bind_eq_ok {x : Except ε α} {f : α → Except ε β} {b : β} :
    x >>= f = .ok b ↔ ∃ a, x = .ok a ∧ f a = .ok b := by
  cases x <;> simp [bind, Except.bind]

theorem bind_eq_error {x : Except ε α} {f : α → Except ε β} {e : ε} :
    x >>= f = .error e ↔ x = .error e ∨ ∃ a, x = .ok a ∧ f a = .error e := by
  cases x <;> simp [bind, Except.bind]

theorem map_eq_ok {x : Except ε α} {f : α → β} {b : β} :
    x.map f = .ok b ↔ ∃ a, x = .ok a ∧ f a = b := by
  cases x <;> simp [Except.map]

theorem map_eq_error {x : Except ε α} {f : α → β} {e : ε} :
    x.map f = .error e ↔ x = .error e := by
  cases x <;> simp [Except.map]

theorem toOption_eq_some {x : Except ε α} {a : α} : x.toOption = some a ↔ x = .ok a := by
  cases x with
  | error e => simp [Except.toOption]
  | ok b => simp [Except.toOption]

theorem mapError_eq_ok {x : Except ε α} {f : ε → δ} {a : α} :
    x.mapError f = .ok a ↔ x = .ok a := by
  cases x with
  | ok b =>
    change Except.ok b = .ok a ↔ _
    rw [Except.ok.injEq, Except.ok.injEq]
  | error e =>
    change Except.error (f e) = .ok a ↔ _
    simp

theorem mapError_eq_error {x : Except ε α} {f : ε → δ} {d : δ} :
    x.mapError f = .error d ↔ ∃ e, x = .error e ∧ f e = d := by
  cases x with
  | ok b =>
    change Except.ok b = .error d ↔ _
    simp
  | error e =>
    change Except.error (f e) = .error d ↔ _
    simp

theorem exists_mapError_eq_error {x : Except ε α} {f : ε → δ} :
    (∃ d, x.mapError f = .error d) ↔ ∃ e, x = .error e := by
  simp only [mapError_eq_error]
  constructor
  · rintro ⟨d, e, h, -⟩
    exact ⟨e, h⟩
  · rintro ⟨e, h⟩
    exact ⟨f e, e, h, rfl⟩

/-- A step that succeeded hands on what came of it. -/
theorem ok_bind (a : α) (f : α → Except ε β) : (Except.ok a >>= f) = f a := rfl

theorem pure_eq_ok {a b : α} : (pure a : Except ε α) = .ok b ↔ a = b := by
  simp [pure, Except.pure]

theorem exists_bind_eq_ok {x : Except ε α} {f : α → Except ε β} :
    (∃ b, x >>= f = .ok b) ↔ ∃ a, x = .ok a ∧ ∃ b, f a = .ok b := by
  cases x <;> simp [bind, Except.bind]

section Checks

variable {p : Prop} [Decidable p]

/-- What follows a check succeeds if the check finds nothing wrong. -/
theorem ite_error_eq_ok {e : ε} {x : Except ε α} {a : α} :
    (if p then .error e else x) = .ok a ↔ ¬p ∧ x = .ok a := by
  split <;> simp_all

/-- A check hands on what it is about. -/
theorem ite_ok_eq_ok {e : ε} {a b : α} :
    (if p then .ok a else .error e : Except ε α) = .ok b ↔ p ∧ a = b := by
  split <;> simp_all

theorem ite_ok_eq_error {e e' : ε} {a : α} :
    (if p then .ok a else .error e : Except ε α) = .error e' ↔ ¬p ∧ e = e' := by
  split <;> simp_all

end Checks

/-- Items that each have a counterpart have a list of them. -/
theorem exists_forall₂ {R : α → β → Prop} {P : β → Prop} {as : List α}
    (h : ∀ a ∈ as, ∃ b, R a b ∧ P b) : ∃ bs, List.Forall₂ R as bs ∧ ∀ b ∈ bs, P b := by
  induction as with
  | nil => exact ⟨[], .nil, by simp⟩
  | cons a as ih =>
    rw [List.forall_mem_cons] at h
    obtain ⟨b, hb, hP⟩ := h.1
    obtain ⟨bs, hbs, hPs⟩ := ih h.2
    exact ⟨b :: bs, .cons hb hbs, List.forall_mem_cons.2 ⟨hP, hPs⟩⟩

/-- A counterpart is that of some item. -/
theorem exists_of_forall₂ {R : α → β → Prop} {as : List α} {bs : List β}
    (h : List.Forall₂ R as bs) {b : β} (hb : b ∈ bs) : ∃ a ∈ as, R a b := by
  induction h with
  | nil => cases hb
  | cons hab _ ih =>
    rcases List.mem_cons.1 hb with rfl | hb
    · exact ⟨_, List.mem_cons_self, hab⟩
    · obtain ⟨a, ha, hR⟩ := ih hb
      exact ⟨a, List.mem_cons_of_mem _ ha, hR⟩

/-! ## Faults -/

/-- The fault of an outcome that failed. -/
def fault? (x : Except ε α) : Option ε :=
  match x with
  | .ok _ => none
  | .error e => some e

theorem fault?_eq_none {x : Except ε α} : fault? x = none ↔ ∃ a, x = .ok a := by
  cases x <;> simp [fault?]

theorem fault?_eq_some {x : Except ε α} {e : ε} : fault? x = some e ↔ x = .error e := by
  cases x <;> simp [fault?]

@[simp] theorem fault?_map (x : Except ε α) (f : α → β) : fault? (x.map f) = fault? x := by
  cases x <;> rfl

@[simp] theorem fault?_bind_pure (x : Except ε α) (f : α → β) :
    fault? (x >>= fun a => pure (f a)) = fault? x := by
  cases x <;> rfl

/-- Two steps fail as the first one does, or else as the second, if the fault of that one does
not hang on what comes of the first. -/
theorem fault?_bind {x : Except ε α} {f : α → Except ε β} {g : Option ε}
    (h : ∀ a, fault? (f a) = g) : fault? (x >>= f) = (fault? x).or g := by
  cases x with
  | error e => rfl
  | ok a => exact h a

end ColumnIndex.Outcome
