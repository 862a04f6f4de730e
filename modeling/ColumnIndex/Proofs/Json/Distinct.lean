import ColumnIndex.Proofs.Json.TreeScan

/-!
# Distinct names

The names in an object of a tree that was read differ, for a name that comes again gives the first
one a new value. The machine that reads the tokens puts nothing but words, numbers and texts into
its scan as they are, so it is enough to look at how members are put together.

Main statement: `Json.distinct_of_parse`.
-/
namespace ColumnIndex.Json

open Outcome

/-- The names in each object of the tree differ. -/
inductive Distinct : Json → Prop
  | null : Distinct .null
  | bool (b : Bool) : Distinct (.bool b)
  | number (n : Json.Number) : Distinct (.number n)
  | text (s : String) : Distinct (.text s)
  | list {items : List Json} (h : ∀ item ∈ items, Distinct item) : Distinct (.list items)
  | object {members : List (String × Json)} (hnames : (Entries.names members).Nodup)
      (h : ∀ name value, (name, value) ∈ members → Distinct value) : Distinct (.object members)

/-- What is read, if anything is, has distinct names. -/
def ReadsDistinct (v : Except SyntaxFault Json) : Prop := ∀ j, v = .ok j → j.Distinct

/-! ## Tokens -/

/-- The value of a token has distinct names. -/
def Token.IsDistinct : Token → Prop
  | .plain v => ReadsDistinct v
  | _ => True

/-- A number has no names. -/
theorem readsDistinct_numberValue (negative : Bool) (whole : List Char)
    (fraction : Option (List Char)) (exponent : Option (Bool × List Char)) :
    ReadsDistinct (numberValue negative whole fraction exponent) := by
  have hfractional : ∀ significand e, ReadsDistinct (fractional negative significand e) := by
    intro significand e j hj
    unfold fractional at hj
    split at hj
    · cases hj
      exact .number _
    · cases hj
  have hnumber : ∀ n, ReadsDistinct (.ok (.number n)) := by
    rintro n j ⟨⟩
    exact .number n
  have herror : ∀ fault, ReadsDistinct (.error fault) := by
    rintro fault j ⟨⟩
  unfold numberValue
  grind

/-- A number token is one whose value has distinct names. -/
theorem isDistinct_numberToken {negative : Bool} {cs rest : List Char} {t : Token}
    (h : numberToken negative cs = .ok (t, rest)) : t.IsDistinct := by
  simp only [numberToken, bind_eq_ok, pure_eq_ok] at h
  obtain ⟨whole, -, fraction, -, exponent, -, h⟩ := h
  cases h
  exact readsDistinct_numberValue negative whole.1 fraction.1 exponent.1

/-- What stops a number is no value. -/
theorem isDistinct_of_numberToken_eq_error {negative : Bool} {cs : List Char} {t : Token}
    (h : numberToken negative cs = .error t) : t.IsDistinct := by
  cases t with
  | plain v => exact absurd h (numberToken_ne_error_plain negative cs v)
  | _ => trivial

theorem isDistinct_tokens (cs : List Char) : ∀ t ∈ tokens cs, t.IsDistinct := by
  have hcons : ∀ {t : Token} {ts}, t.IsDistinct → (∀ t ∈ ts, t.IsDistinct) →
      ∀ t' ∈ t :: ts, t'.IsDistinct := fun h hs => List.forall_mem_cons.2 ⟨h, hs⟩
  have hlast : ∀ {t : Token}, t.IsDistinct → ∀ t' ∈ [t], t'.IsDistinct := fun h =>
    hcons h (List.forall_mem_nil _)
  have hword : ∀ {j : Json}, j.Distinct → (Token.plain (.ok j)).IsDistinct := by
    rintro j hj _ ⟨⟩
    exact hj
  fun_induction tokens cs
  case case1 => exact List.forall_mem_nil _
  case case2 ih => exact ih
  case case3 ih | case4 ih | case5 ih | case6 ih | case7 ih | case8 ih | case9 ih =>
    exact hcons trivial ih
  case case11 ih => exact hcons (hword .null) ih
  case case13 ih => exact hcons (hword (.bool true)) ih
  case case15 ih => exact hcons (hword (.bool false)) ih
  case case17 ih | case19 ih => exact hcons (isDistinct_numberToken ‹_›) ih
  case case18 | case20 => exact hlast (isDistinct_of_numberToken_eq_error ‹_›)
  all_goals exact hlast trivial

/-! ## The machine -/

/-- The values in a scan have distinct names. -/
inductive Scan.IsDistinct : Scan → Prop
  | scalar {v : Except SyntaxFault Json} (h : ReadsDistinct v) : IsDistinct (.scalar v)
  | list {items : List Scan} {stop : Option Stop} (h : ∀ s ∈ items, IsDistinct s) :
      IsDistinct (.list items stop)
  | object {members : Scan.Members} {stop : Option Stop}
      (h : ∀ key s, (key, s) ∈ members → IsDistinct s) : IsDistinct (.object members stop)
  | broken (stop : Stop) : IsDistinct (.broken stop)

/-- The values in the members have distinct names. -/
def Scan.Members.IsDistinct (members : Scan.Members) : Prop :=
  ∀ key s, (key, s) ∈ members → s.IsDistinct

/-- The values in a frame have distinct names. -/
def Frame.IsDistinct : Frame → Prop
  | list done => ∀ s ∈ done, s.IsDistinct
  | object done _ => Scan.Members.IsDistinct done

/-- The values in a place have distinct names. -/
def Place.IsDistinct : Place → Prop
  | nextItem done | afterItem done => ∀ s ∈ done, s.IsDistinct
  | nextKey done | afterKey done _ | afterMember done => Scan.Members.IsDistinct done
  | value | firstItem | firstKey => True

/-- The values in what comes of a step have distinct names. -/
def Step.IsDistinct : Step → Prop
  | next frames place => (∀ f ∈ frames, f.IsDistinct) ∧ place.IsDistinct
  | complete root => root.IsDistinct
  | broken root => root.IsDistinct

variable {frames : List Frame}

theorem isDistinct_list {done : List Scan} {stop : Option Stop}
    (h : ∀ s ∈ done, s.IsDistinct) : (Scan.list done.reverse stop).IsDistinct := by
  refine .list fun s hs => h s ?_
  exact List.mem_reverse.1 hs

theorem isDistinct_object {done : Scan.Members} {stop : Option Stop}
    (h : Scan.Members.IsDistinct done) : (Scan.object done.reverse stop).IsDistinct := by
  refine .object fun key s hs => h key s ?_
  exact List.mem_reverse.1 hs

theorem isDistinct_enclose {stop : Stop} {inner : Scan} (hinner : inner.IsDistinct)
    (hframes : ∀ f ∈ frames, f.IsDistinct) : (enclose stop inner frames).IsDistinct := by
  induction frames generalizing inner with
  | nil => exact hinner
  | cons frame frames ih =>
    rw [List.forall_mem_cons] at hframes
    obtain ⟨hframe, hframes⟩ := hframes
    cases frame with
    | list done =>
      refine ih (.list fun s hs => ?_) hframes
      rcases List.mem_append.1 hs with hs | hs
      · exact hframe s (List.mem_reverse.1 hs)
      · rwa [List.mem_singleton.1 hs]
    | object done key =>
      refine ih (.object fun k s hs => ?_) hframes
      rcases List.mem_append.1 hs with hs | hs
      · exact hframe k s (List.mem_reverse.1 hs)
      · cases List.mem_singleton.1 hs
        exact hinner

theorem isDistinct_ofValue {value : Scan} (hvalue : value.IsDistinct)
    (hframes : ∀ f ∈ frames, f.IsDistinct) : (Step.ofValue frames value).IsDistinct := by
  cases frames with
  | nil => exact hvalue
  | cons frame frames =>
    rw [List.forall_mem_cons] at hframes
    obtain ⟨hframe, hframes⟩ := hframes
    cases frame with
    | list done => exact ⟨hframes, List.forall_mem_cons.2 ⟨hvalue, hframe⟩⟩
    | object done key =>
      refine ⟨hframes, fun k s hs => ?_⟩
      rcases List.mem_cons.1 hs with hs | hs
      · cases hs
        exact hvalue
      · exact hframe k s hs

theorem isDistinct_valueStep {t : Token} (ht : t.IsDistinct)
    (hframes : ∀ f ∈ frames, f.IsDistinct) : (valueStep frames t).IsDistinct := by
  have hbroken : ∀ stop, (noScan frames stop).IsDistinct := fun stop =>
    isDistinct_enclose (.broken stop) hframes
  cases t with
  | openList => exact ⟨hframes, trivial⟩
  | openObject => exact ⟨hframes, trivial⟩
  | plain v => exact isDistinct_ofValue (.scalar ht) hframes
  | text v =>
    refine isDistinct_ofValue (.scalar fun j hj => ?_) hframes
    obtain ⟨s, -, rfl⟩ := map_eq_ok.1 hj
    exact .text s
  | _ => exact hbroken _

theorem isDistinct_keyStep {done : Scan.Members} (t : Token)
    (hdone : Scan.Members.IsDistinct done) (hframes : ∀ f ∈ frames, f.IsDistinct) :
    (keyStep frames done t).IsDistinct := by
  have hbroken : ∀ stop, (stoppedObject frames done stop).IsDistinct := fun stop =>
    isDistinct_enclose (isDistinct_object hdone) hframes
  cases t with
  | text key => exact ⟨hframes, hdone⟩
  | stop inText stop => cases inText <;> exact hbroken _
  | _ => exact hbroken _

/-- A step keeps the names distinct. -/
theorem isDistinct_step {place : Place} {t : Token} (ht : t.IsDistinct)
    (hplace : place.IsDistinct) (hframes : ∀ f ∈ frames, f.IsDistinct) :
    (step frames place t).IsDistinct := by
  have hitems : ∀ {done stop}, (∀ s ∈ done, s.IsDistinct) →
      (stoppedList frames done stop).IsDistinct := fun hdone =>
    isDistinct_enclose (isDistinct_list hdone) hframes
  have hmembers : ∀ {done stop}, Scan.Members.IsDistinct done →
      (stoppedObject frames done stop).IsDistinct := fun hdone =>
    isDistinct_enclose (isDistinct_object hdone) hframes
  have hnil : Scan.Members.IsDistinct [] := fun _ _ hs => absurd hs (List.not_mem_nil)
  cases place with
  | value => exact isDistinct_valueStep ht hframes
  | firstItem =>
    by_cases hclose : t = .closeList
    · subst hclose
      exact isDistinct_ofValue (.list (List.forall_mem_nil _)) hframes
    · rw [step_firstItem hclose]
      exact isDistinct_valueStep ht (List.forall_mem_cons.2 ⟨List.forall_mem_nil _, hframes⟩)
  | nextItem done =>
    by_cases hclose : t = .closeList
    · subst hclose
      exact hitems hplace
    · rw [step_nextItem hclose]
      exact isDistinct_valueStep ht (List.forall_mem_cons.2 ⟨hplace, hframes⟩)
  | afterItem done =>
    cases t with
    | comma => exact ⟨hframes, hplace⟩
    | closeList => exact isDistinct_ofValue (isDistinct_list hplace) hframes
    | _ => exact hitems hplace
  | firstKey =>
    by_cases hclose : t = .closeObject
    · subst hclose
      exact isDistinct_ofValue (.object hnil) hframes
    · rw [step_firstKey hclose]
      exact isDistinct_keyStep t hnil hframes
  | nextKey done =>
    by_cases hclose : t = .closeObject
    · subst hclose
      exact hmembers hplace
    · rw [step_nextKey hclose]
      exact isDistinct_keyStep t hplace hframes
  | afterKey done key =>
    have hframes' : ∀ f ∈ Frame.object done key :: frames, f.IsDistinct :=
      List.forall_mem_cons.2 ⟨hplace, hframes⟩
    cases t with
    | colon => exact ⟨hframes', trivial⟩
    | _ => exact isDistinct_enclose (.broken _) hframes'
  | afterMember done =>
    cases t with
    | comma => exact ⟨hframes, hplace⟩
    | closeObject => exact isDistinct_ofValue (isDistinct_object hplace) hframes
    | _ => exact hmembers hplace

theorem isDistinct_atEnd {place : Place} (hplace : place.IsDistinct)
    (hframes : ∀ f ∈ frames, f.IsDistinct) : (atEnd frames place).IsDistinct := by
  have hnil : Scan.Members.IsDistinct [] := fun _ _ hs => absurd hs (List.not_mem_nil)
  cases place with
  | value => exact isDistinct_enclose (.broken _) hframes
  | firstItem => exact isDistinct_enclose (isDistinct_list (List.forall_mem_nil _)) hframes
  | nextItem done => exact isDistinct_enclose (isDistinct_list hplace) hframes
  | afterItem done => exact isDistinct_enclose (isDistinct_list hplace) hframes
  | firstKey => exact isDistinct_enclose (isDistinct_object hnil) hframes
  | nextKey done => exact isDistinct_enclose (isDistinct_object hplace) hframes
  | afterKey done key =>
    exact isDistinct_enclose (.broken _) (List.forall_mem_cons.2 ⟨hplace, hframes⟩)
  | afterMember done => exact isDistinct_enclose (isDistinct_object hplace) hframes

/-- A run over tokens keeps the names distinct. -/
theorem isDistinct_scanFrom {place : Place} {ts : List Token} (hts : ∀ t ∈ ts, t.IsDistinct)
    (hplace : place.IsDistinct) (hframes : ∀ f ∈ frames, f.IsDistinct) :
    (scanFrom frames place ts).root.IsDistinct := by
  induction ts generalizing frames place with
  | nil => exact isDistinct_atEnd hplace hframes
  | cons t ts ih =>
    rw [List.forall_mem_cons] at hts
    have hstep := isDistinct_step hts.1 hplace hframes
    rw [scanFrom_cons]
    cases hs : step frames place t with
    | next frames' place' =>
      rw [hs] at hstep
      exact ih hts.2 hstep.2 hstep.1
    | complete root =>
      rw [hs] at hstep
      exact hstep
    | broken root =>
      rw [hs] at hstep
      exact hstep

/-! ## Trees -/

/-- Putting a member keeps the names distinct. -/
theorem nodup_names_put {name : String} {value : Json} {members : List (String × Json)}
    (h : (Entries.names members).Nodup) :
    (Entries.names (Entries.put name value members)).Nodup := by
  rw [Entries.names_put]
  split
  · exact h
  · rename_i hname
    rw [List.nodup_append]
    refine ⟨h, by simp, ?_⟩
    rintro a ha b hb rfl
    exact hname (List.mem_singleton.1 hb ▸ ha)

/-- What is put is the only new value. -/
theorem mem_of_mem_put {name key : String} {value j : Json} {members : List (String × Json)}
    (h : (key, j) ∈ Entries.put name value members) : j = value ∨ (key, j) ∈ members := by
  induction members with
  | nil =>
    cases List.mem_singleton.1 h
    exact .inl rfl
  | cons m ms ih =>
    obtain ⟨other, old⟩ := m
    rw [Entries.put] at h
    split at h
    · rcases List.mem_cons.1 h with h | h
      · cases h
        exact .inl rfl
      · exact .inr (List.mem_cons_of_mem _ h)
    · rcases List.mem_cons.1 h with h | h
      · cases h
        exact .inr (List.mem_cons_self ..)
      · exact (ih h).imp_right (List.mem_cons_of_mem _)

mutual

/-- What a scan is read as has distinct names. -/
theorem distinct_of_toJson : ∀ {s : Scan}, s.IsDistinct → ∀ {room : Nat} {j : Json},
    s.toJson room = .ok j → j.Distinct
  | .scalar v, hs, room, j, h => by
    cases hs with
    | scalar hv => exact hv j h
  | .broken stop, _, room, j, h => by cases h
  | .list items stop, hs, room, j, h => by
    cases hs with
    | list hitems =>
      cases room with
      | zero => cases h
      | succ room =>
        simp only [Scan.toJson, bind_eq_ok, pure_eq_ok] at h
        obtain ⟨js, hjs, _, -, rfl⟩ := h
        exact .list (distinct_of_listToJson hitems hjs)
  | .object members stop, hs, room, j, h => by
    cases hs with
    | object hmembers =>
      cases room with
      | zero => cases h
      | succ room =>
        simp only [Scan.toJson, bind_eq_ok, pure_eq_ok] at h
        obtain ⟨ms, hms, _, -, rfl⟩ := h
        have hnil : (Entries.names ([] : List (String × Json))).Nodup := List.nodup_nil
        have hread := distinct_of_membersToJson hmembers hnil (by simp) hms
        exact .object hread.1 hread.2

theorem distinct_of_listToJson : ∀ {items : List Scan}, (∀ s ∈ items, s.IsDistinct) →
    ∀ {room : Nat} {js : List Json}, Scan.listToJson room items = .ok js → ∀ j ∈ js, j.Distinct
  | [], _, room, js, h => by
    cases h
    exact List.forall_mem_nil _
  | item :: items, hs, room, js, h => by
    rw [List.forall_mem_cons] at hs
    simp only [Scan.listToJson, bind_eq_ok, pure_eq_ok] at h
    obtain ⟨j, hj, js, hjs, rfl⟩ := h
    exact List.forall_mem_cons.2 ⟨distinct_of_toJson hs.1 hj, distinct_of_listToJson hs.2 hjs⟩

/-- The members that were put together so far have distinct names, and so they have with more. -/
theorem distinct_of_membersToJson : ∀ {members : Scan.Members},
    Scan.Members.IsDistinct members → ∀ {room : Nat} {done ms : List (String × Json)},
    (Entries.names done).Nodup → (∀ name value, (name, value) ∈ done → value.Distinct) →
    Scan.membersToJson room done members = .ok ms →
    (Entries.names ms).Nodup ∧ ∀ name value, (name, value) ∈ ms → value.Distinct
  | [], _, room, done, ms, hnames, hdone, h => by
    cases h
    exact ⟨hnames, hdone⟩
  | (key, s) :: members, hs, room, done, ms, hnames, hdone, h => by
    simp only [Scan.membersToJson, bind_eq_ok] at h
    obtain ⟨name, -, value, hvalue, h⟩ := h
    have hnew : value.Distinct := distinct_of_toJson (hs key s (List.mem_cons_self ..)) hvalue
    refine distinct_of_membersToJson (fun k s hmem => hs k s (List.mem_cons_of_mem _ hmem))
      (nodup_names_put hnames) (fun key j hmem => ?_) h
    rcases mem_of_mem_put hmem with rfl | hold
    · exact hnew
    · exact hdone key j hold

end

/-- The names in each object of a tree that was read differ. -/
theorem distinct_of_parse {text : String} {j : Json} (h : parse text = .ok j) : j.Distinct := by
  simp only [parse, bind_eq_ok, pure_eq_ok] at h
  obtain ⟨tree, htree, _, -, rfl⟩ := h
  have hroot : (scan text).root.IsDistinct :=
    isDistinct_scanFrom (isDistinct_tokens text.toList) trivial (List.forall_mem_nil _)
  exact distinct_of_toJson hroot htree

end ColumnIndex.Json
