/-!
# Named entries

Entries in the order in which their names came up first. Putting a value under a name that is
there already replaces the value and keeps the place.

## Main definitions

* `Entries.put` — one more entry, or a new value in the place of an old one.
* `Entries.names` — the names in order.
-/
namespace ColumnIndex.Entries

variable {α : Type}

/-- The entries with the value under the name. -/
def put (name : String) (value : α) : List (String × α) → List (String × α)
  | [] => [(name, value)]
  | (n, v) :: rest => if n = name then (n, value) :: rest else (n, v) :: put name value rest

/-- The names in order. -/
def names (entries : List (String × α)) : List String := entries.map (·.1)

theorem names_singleton (entry : String × α) : names [entry] = [entry.1] := rfl

theorem names_append (entries others : List (String × α)) :
    names (entries ++ others) = names entries ++ names others :=
  List.map_append

/-- A name that is put is new at the end, or stays where it is. -/
theorem names_put (name : String) (value : α) (entries : List (String × α)) :
    names (put name value entries) =
      if name ∈ names entries then names entries else names entries ++ [name] := by
  induction entries with
  | nil => simp [put, names]
  | cons entry rest ih =>
    obtain ⟨n, v⟩ := entry
    by_cases h : n = name
    · simp [put, names, h]
    · have h' : ¬name = n := fun e => h e.symm
      simp only [names] at ih
      simp only [put, names, h, h', if_false, List.map_cons, List.mem_cons, false_or, ih]
      split <;> rename_i hm <;> simp [hm]

/-- What is looked up after a put is the new value under its name, and unchanged elsewhere. -/
theorem lookup_put (name other : String) (value : α) (entries : List (String × α)) :
    (put name value entries).lookup other =
      if other = name then some value else entries.lookup other := by
  induction entries with
  | nil => grind [put]
  | cons entry rest ih =>
    obtain ⟨n, v⟩ := entry
    by_cases h : n = name <;> by_cases h' : other = n <;> grind [put]

/-- Nothing is found under what is no name. -/
theorem lookup_eq_none_iff {entries : List (String × α)} {name : String} :
    entries.lookup name = none ↔ name ∉ names entries := by
  rw [List.lookup_eq_none_iff, names, List.mem_map]
  constructor
  · rintro h ⟨entry, hentry, rfl⟩
    exact bne_iff_ne.1 (h entry hentry) rfl
  · intro h entry hentry
    rw [bne_iff_ne]
    rintro rfl
    exact h ⟨entry, hentry, rfl⟩

/-- Where names differ, an entry is what is found under its name. -/
theorem lookup_eq_some_iff {entries : List (String × α)} (h : (names entries).Nodup)
    {name : String} {value : α} :
    entries.lookup name = some value ↔ (name, value) ∈ entries := by
  induction entries with
  | nil => simp
  | cons entry rest ih =>
    obtain ⟨other, found⟩ := entry
    have hnames : names ((other, found) :: rest) = other :: names rest := rfl
    rw [hnames, List.nodup_cons] at h
    rw [List.lookup_cons, List.mem_cons]
    by_cases hname : name = other
    · subst hname
      have hnot : (name, value) ∉ rest := fun hmem => h.1 (List.mem_map_of_mem hmem)
      simp [hnot, eq_comm]
    · rw [beq_false_of_ne hname]
      simp [hname, ih h.2]

end ColumnIndex.Entries
