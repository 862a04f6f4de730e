import ColumnIndex.Json.Scan
import ColumnIndex.Proofs.Json.TreeTokens

/-!
# Scans of written trees

The machine that reads a written tree builds the scan of the tree: whatever is open around it, the
scan goes there as one value. The scan is read as a tree again unless it is nested too deep.

## Main definitions

* `Json.resume` — the scan after one more token.
* `Json.mirror` — the scan of a written tree.
* `Json.reread` — the tree that is read where a tree was written.

Main statement: a legible tree is read back exactly if it is not nested too deep.
-/
namespace ColumnIndex.Json

open Outcome

/-! ## The machine on a tree -/

/-- The scan of the tokens after a step. -/
def resume (s : Step) (ts : List Token) : Scanned :=
  match s with
  | .next frames place => scanFrom frames place ts
  | .complete root => ⟨root, !ts.isEmpty⟩
  | .broken root => ⟨root, false⟩

theorem scanFrom_cons (frames : List Frame) (place : Place) (t : Token) (ts : List Token) :
    scanFrom frames place (t :: ts) = resume (step frames place t) ts := rfl

mutual

/-- The scan of a written tree. -/
def mirror : Json → Scan
  | number n => .scalar (.ok n.reread)
  | list items => .list (itemMirrors items) none
  | object members => .object (memberMirrors members) none
  | j => .scalar (.ok j)

/-- The scans of written items. -/
def itemMirrors : List Json → List Scan
  | [] => []
  | item :: items => mirror item :: itemMirrors items

/-- The scans of written members. -/
def memberMirrors : List (String × Json) → Scan.Members
  | [] => []
  | (key, value) :: members => (.ok key, mirror value) :: memberMirrors members

end

theorem firstToken_ne_closeList (j : Json) : j.firstToken ≠ .closeList := by
  cases j <;> simp [firstToken]

theorem itemTokens_cons (item : Json) (items : List Json) :
    ∃ ts, itemTokens (item :: items) = item.firstToken :: ts := by
  cases items with
  | nil => exact ⟨_, rfl⟩
  | cons other others => exact ⟨_, rfl⟩

theorem memberTokens_cons (key : String) (value : Json) (members : List (String × Json)) :
    ∃ ts, memberTokens ((key, value) :: members) = .text (.ok key) :: ts := by
  cases members with
  | nil => exact ⟨_, rfl⟩
  | cons other others => exact ⟨_, rfl⟩

variable {frames : List Frame}

/-- Unless the list ends at once, its first item is read as a value. -/
theorem step_firstItem {t : Token} (ht : t ≠ .closeList) :
    step frames .firstItem t = valueStep (.list [] :: frames) t := by
  cases t <;> first | rfl | exact absurd rfl ht

/-- Behind a comma the next item is read as a value. -/
theorem step_nextItem {done : List Scan} {t : Token} (ht : t ≠ .closeList) :
    step frames (.nextItem done) t = valueStep (.list done :: frames) t := by
  cases t <;> first | rfl | exact absurd rfl ht

theorem step_firstKey {t : Token} (ht : t ≠ .closeObject) :
    step frames .firstKey t = keyStep frames [] t := by
  cases t <;> first | rfl | exact absurd rfl ht

theorem step_nextKey {done : Scan.Members} {t : Token} (ht : t ≠ .closeObject) :
    step frames (.nextKey done) t = keyStep frames done t := by
  cases t <;> first | rfl | exact absurd rfl ht

theorem scanFrom_firstItem {t : Token} (ht : t ≠ .closeList) (ts : List Token) :
    scanFrom frames .firstItem (t :: ts) = scanFrom (.list [] :: frames) .value (t :: ts) := by
  rw [scanFrom_cons, step_firstItem ht]
  rfl

theorem scanFrom_nextItem {done : List Scan} {t : Token} (ht : t ≠ .closeList) (ts : List Token) :
    scanFrom frames (.nextItem done) (t :: ts)
      = scanFrom (.list done :: frames) .value (t :: ts) := by
  rw [scanFrom_cons, step_nextItem ht]
  rfl

/-- A key and a colon lead to the value of the member. -/
theorem scanFrom_nextKey (done : Scan.Members) (key : Except SyntaxFault String)
    (ts : List Token) :
    scanFrom frames (.nextKey done) (.text key :: .colon :: ts)
      = scanFrom (.object done key :: frames) .value ts := rfl

mutual

/-- The tokens of a tree are read as one value, which goes into the innermost frame. -/
theorem scanFrom_value : ∀ (j : Json) (frames : List Frame) (ts : List Token),
    scanFrom frames .value (j.firstToken :: (j.laterTokens ++ ts))
      = resume (.ofValue frames j.mirror) ts
  | .null, frames, ts => rfl
  | .bool b, frames, ts => rfl
  | .number n, frames, ts => rfl
  | .text s, frames, ts => rfl
  | .list items, frames, ts => by
    -- An item never starts with the bracket that ends a list, so the place of the first item is
    -- as good as that of a value.
    have hitems := fun h => scanFrom_items items h frames [] ts
    cases items with
    | nil => rfl
    | cons item items =>
      specialize hitems (List.cons_ne_nil item items)
      obtain ⟨more, hmore⟩ := itemTokens_cons item items
      rw [hmore, List.cons_append, ← scanFrom_firstItem (firstToken_ne_closeList item)] at hitems
      rw [laterTokens, hmore]
      exact hitems
  | .object members, frames, ts => by
    have hmembers := fun h => scanFrom_members members h frames [] ts
    cases members with
    | nil => rfl
    | cons member members =>
      specialize hmembers (List.cons_ne_nil member members)
      obtain ⟨key, value⟩ := member
      obtain ⟨more, hmore⟩ := memberTokens_cons key value members
      rw [hmore, List.cons_append] at hmembers
      rw [laterTokens, hmore]
      exact hmembers

/-- The tokens of items are read one after the other, up to the end of the list. -/
theorem scanFrom_items : ∀ (items : List Json), items ≠ [] → ∀ (frames : List Frame)
    (done : List Scan) (ts : List Token),
    scanFrom (.list done :: frames) .value (itemTokens items ++ ts)
      = resume (.ofValue frames (.list (done.reverse ++ itemMirrors items) none)) ts
  | [], h, frames, done, ts => absurd rfl h
  | [item], _, frames, done, ts => by
    rw [itemTokens, List.cons_append, List.cons_append, List.append_assoc, scanFrom_value item]
    change resume (.ofValue frames (.list (item.mirror :: done).reverse none)) ts = _
    simp [itemMirrors]
  | item :: other :: others, _, frames, done, ts => by
    have hothers := scanFrom_items (other :: others) (List.cons_ne_nil _ _) frames
      (item.mirror :: done) ts
    obtain ⟨more, hmore⟩ := itemTokens_cons other others
    rw [hmore, List.cons_append, ← scanFrom_nextItem (firstToken_ne_closeList other)] at hothers
    rw [itemTokens, hmore, List.cons_append, List.cons_append, List.append_assoc,
      scanFrom_value item]
    change scanFrom frames (.nextItem (item.mirror :: done)) (other.firstToken :: (more ++ ts)) = _
    rw [hothers]
    simp [itemMirrors]

/-- The tokens of members are read one after the other, up to the end of the object. -/
theorem scanFrom_members : ∀ (members : List (String × Json)), members ≠ [] →
    ∀ (frames : List Frame) (done : Scan.Members) (ts : List Token),
    scanFrom frames (.nextKey done) (memberTokens members ++ ts)
      = resume (.ofValue frames (.object (done.reverse ++ memberMirrors members) none)) ts
  | [], h, frames, done, ts => absurd rfl h
  | [(key, value)], _, frames, done, ts => by
    simp only [memberTokens, List.cons_append, List.append_assoc, List.nil_append]
    rw [scanFrom_nextKey, scanFrom_value value]
    change resume (.ofValue frames (.object ((.ok key, value.mirror) :: done).reverse none)) ts = _
    simp [memberMirrors]
  | (key, value) :: other :: others, _, frames, done, ts => by
    simp only [memberTokens, List.cons_append, List.append_assoc]
    rw [scanFrom_nextKey, scanFrom_value value]
    change scanFrom frames (.nextKey ((.ok key, value.mirror) :: done)) _ = _
    rw [scanFrom_members (other :: others) (List.cons_ne_nil _ _)]
    simp [memberMirrors]

end

/-- A tree is scanned as it was written, and nothing follows it. -/
theorem scan_compact {j : Json} (h : j.Scannable) : scan j.compact = ⟨j.mirror, false⟩ := by
  have htokens := tokens_chars h delimited_nil
  rw [List.append_nil] at htokens
  rw [scan, compact, String.toList_ofList, htokens, List.cons_append, scanFrom_value, tokens_nil]
  rfl

/-! ## The scan as a tree -/

mutual

/-- The tree that is read where a tree was written. -/
def reread : Json → Json
  | number n => n.reread
  | list items => .list (rereadItems items)
  | object members => .object (rereadMembers members)
  | j => j

/-- The items that are read where items were written. -/
def rereadItems : List Json → List Json
  | [] => []
  | item :: items => reread item :: rereadItems items

/-- The members that are read where members were written. -/
def rereadMembers : List (String × Json) → List (String × Json)
  | [] => []
  | (key, value) :: members => (key, reread value) :: rereadMembers members

end

/-- What is nested so deep, or the fault if there is too little room for it. -/
def ifShallow {ε α : Type} (fault : ε) (depth room : Nat) (a : α) : Except ε α :=
  if depth ≤ room then .ok a else .error fault

section Shallow

variable {ε δ α β : Type} {fault : ε} {depth depth' room : Nat}

@[simp] theorem ifShallow_zero (a : α) : ifShallow fault 0 room a = .ok a := by
  simp [ifShallow]

@[simp] theorem ifShallow_succ_zero (a : α) : ifShallow fault (depth + 1) 0 a = .error fault := by
  simp [ifShallow]

@[simp] theorem ifShallow_succ_succ (a : α) :
    ifShallow fault (depth + 1) (room + 1) a = ifShallow fault depth room a := by
  simp [ifShallow]

theorem ifShallow_map (a : α) (f : α → β) :
    (ifShallow fault depth room a).map f = ifShallow fault depth room (f a) :=
  apply_ite (Except.map f) (depth ≤ room) (.ok a) (.error fault)

theorem ifShallow_mapError (a : α) (f : ε → δ) :
    (ifShallow fault depth room a).mapError f = ifShallow (f fault) depth room a :=
  apply_ite (Except.mapError f) (depth ≤ room) (.ok a) (.error fault)

/-- Of two parts both must be shallow. -/
theorem ifShallow_bind {a : α} {b : β} {f : α → Except ε β}
    (h : f a = ifShallow fault depth' room b) :
    ifShallow fault depth room a >>= f = ifShallow fault (max depth depth') room b := by
  unfold ifShallow
  by_cases hdepth : depth ≤ room
  · rw [if_pos hdepth]
    change f a = _
    rw [h, ifShallow]
    by_cases hdepth' : depth' ≤ room
    · rw [if_pos hdepth', if_pos (Nat.max_le.2 ⟨hdepth, hdepth'⟩)]
    · rw [if_neg hdepth', if_neg fun hmax => hdepth' (Nat.max_le.1 hmax).2]
  · rw [if_neg hdepth, if_neg fun hmax => hdepth (Nat.max_le.1 hmax).1]
    rfl

theorem ifShallow_bind_ok {a : α} {b : β} {f : α → Except ε β} (h : f a = .ok b) :
    ifShallow fault depth room a >>= f = ifShallow fault depth room b := by
  have hzero : f a = ifShallow fault 0 room b := by rw [h, ifShallow_zero]
  rw [ifShallow_bind hzero, Nat.max_zero]

end Shallow

theorem put_of_not_mem {key : String} {value : Json} {done : List (String × Json)}
    (h : key ∉ Entries.names done) : Entries.put key value done = done ++ [(key, value)] := by
  induction done with
  | nil => rfl
  | cons entry done ih =>
    obtain ⟨name, v⟩ := entry
    simp only [Entries.names, List.map_cons, List.mem_cons, not_or] at h
    rw [Entries.put, if_neg (Ne.symm h.1), ih h.2]
    rfl

mutual

/-- The scan of a tree is read as the tree, unless there is too little room for it. -/
theorem toJson_mirror : ∀ {j : Json}, j.Legible → ∀ {room : Nat},
    j.mirror.toJson room = ifShallow .tooDeep j.depth room j.reread
  | .null, _, room => (ifShallow_zero _).symm
  | .bool b, _, room => (ifShallow_zero _).symm
  | .number n, _, room => (ifShallow_zero _).symm
  | .text s, _, room => (ifShallow_zero _).symm
  | .list items, h, room => by
    rw [mirror, depth, reread]
    cases room with
    | zero => rw [ifShallow_succ_zero, Scan.toJson]
    | succ room =>
      rw [ifShallow_succ_succ, Scan.toJson, listToJson_itemMirrors h]
      exact ifShallow_bind_ok rfl
  | .object members, h, room => by
    rw [mirror, depth, reread]
    cases room with
    | zero => rw [ifShallow_succ_zero, Scan.toJson]
    | succ room =>
      have hnew : ∀ key ∈ Entries.names members, key ∉ Entries.names ([] : List (String × Json)) :=
        fun _ _ => List.not_mem_nil
      rw [ifShallow_succ_succ, Scan.toJson, membersToJson_memberMirrors h.2 h.1 hnew]
      exact ifShallow_bind_ok rfl

theorem listToJson_itemMirrors : ∀ {items : List Json}, ItemsLegible items → ∀ {room : Nat},
    Scan.listToJson room (itemMirrors items)
      = ifShallow .tooDeep (listDepth items) room (rereadItems items)
  | [], _, room => (ifShallow_zero _).symm
  | item :: items, h, room => by
    rw [itemMirrors, Scan.listToJson, toJson_mirror h.1]
    refine ifShallow_bind ?_
    rw [listToJson_itemMirrors h.2]
    exact ifShallow_bind_ok rfl

/-- Keys that are new go behind the members that are there already. -/
theorem membersToJson_memberMirrors : ∀ {members : List (String × Json)},
    MembersLegible members → (Entries.names members).Nodup → ∀ {done : List (String × Json)},
    (∀ key ∈ Entries.names members, key ∉ Entries.names done) → ∀ {room : Nat},
    Scan.membersToJson room done (memberMirrors members)
      = ifShallow .tooDeep (memberDepth members) room (done ++ rereadMembers members)
  | [], _, _, done, _, room => by
    rw [memberDepth, ifShallow_zero, rereadMembers, List.append_nil]
    rfl
  | (key, value) :: members, h, hnodup, done, hnew, room => by
    have hnames : Entries.names ((key, value) :: members) = key :: Entries.names members := rfl
    rw [hnames, List.nodup_cons] at hnodup
    rw [hnames, List.forall_mem_cons] at hnew
    have hmore : ∀ name ∈ Entries.names members,
        name ∉ Entries.names (done ++ [(key, value.reread)]) := by
      intro name hname
      have hdone := hnew.2 name hname
      have hkey : name ≠ key := by
        rintro rfl
        exact hnodup.1 hname
      rw [Entries.names] at hdone ⊢
      simp [hdone, hkey]
    have hmembers : Scan.membersToJson room _ _ = _ :=
      membersToJson_memberMirrors h.2 hnodup.2 hmore
    rw [List.append_assoc, ← put_of_not_mem hnew.1] at hmembers
    rw [memberMirrors, Scan.membersToJson]
    change (value.mirror.toJson room >>= _) = _
    rw [toJson_mirror h.1]
    exact ifShallow_bind hmembers

end

/-- A legible tree is read back exactly if it is not nested too deep. -/
theorem parse_compact {j : Json} (h : j.Legible) :
    parse j.compact = if j.depth ≤ maxDepth then .ok j.reread else .error .tooDeep := by
  rw [parse, scan_compact h.scannable]
  change (j.mirror.toJson maxDepth >>= fun tree => pure tree) = _
  rw [toJson_mirror h]
  exact ifShallow_bind_ok rfl

/-! ## Texts of one number -/

/-- Whether a scan has more than one token, or cannot be read. -/
def Scan.Composite (s : Scan) : Prop := ∀ v, s ≠ .scalar v

/-- What comes of a step inside a list or an object, or behind the start of one. -/
def Step.Inside : Step → Prop
  | next frames place => frames ≠ [] ∨ place ≠ .value
  | complete root => root.Composite
  | broken root => root.Composite

theorem composite_enclose {inner : Scan} (h : inner.Composite) (stop : Stop)
    (frames : List Frame) : (enclose stop inner frames).Composite := by
  induction frames generalizing inner with
  | nil => exact h
  | cons frame frames ih =>
    cases frame with
    | list done => exact ih (by intro v hv; cases hv)
    | object done key => exact ih (by intro v hv; cases hv)

theorem inside_ofValue {value : Scan} (h : frames ≠ [] ∨ value.Composite) :
    (Step.ofValue frames value).Inside := by
  cases frames with
  | nil => exact h.resolve_left fun hne => hne rfl
  | cons frame frames =>
    cases frame with
    | list done => exact .inr (by simp)
    | object done key => exact .inr (by simp)

theorem inside_valueStep (h : frames ≠ []) (t : Token) : (valueStep frames t).Inside := by
  have hbroken : ∀ stop, (noScan frames stop).Composite :=
    fun stop => composite_enclose (by intro v hv; cases hv) stop frames
  cases t with
  | openList => exact .inl h
  | openObject => exact .inl h
  | plain v => exact inside_ofValue (.inl h)
  | text v => exact inside_ofValue (.inl h)
  | _ => exact hbroken _

theorem inside_keyStep (done : Scan.Members) (t : Token) : (keyStep frames done t).Inside := by
  have hbroken : ∀ stop, (stoppedObject frames done stop).Composite :=
    fun stop => composite_enclose (by intro v hv; cases hv) stop frames
  cases t with
  | text key => exact .inr (by simp)
  | stop inText stop => cases inText <;> exact hbroken _
  | _ => exact hbroken _

/-- Once inside, a step stays inside, or gives a scan that is no single value. -/
theorem inside_step {place : Place} (h : frames ≠ [] ∨ place ≠ .value) (t : Token) :
    (step frames place t).Inside := by
  have hlist : ∀ items stop, (Scan.list items stop).Composite := by
    intro items stop v hv
    cases hv
  have hobject : ∀ members stop, (Scan.object members stop).Composite := by
    intro members stop v hv
    cases hv
  -- The end of the innermost list or object may lead outside, but then to a composite scan.
  cases place with
  | value => exact inside_valueStep (h.resolve_right fun hne => hne rfl) t
  | firstItem =>
    by_cases ht : t = .closeList
    · subst ht
      exact inside_ofValue (.inr (hlist _ _))
    · rw [step_firstItem ht]
      exact inside_valueStep (List.cons_ne_nil _ _) t
  | nextItem done =>
    by_cases ht : t = .closeList
    · subst ht
      exact composite_enclose (hlist _ _) _ _
    · rw [step_nextItem ht]
      exact inside_valueStep (List.cons_ne_nil _ _) t
  | afterItem done =>
    cases t with
    | comma => exact .inr (by simp)
    | closeList => exact inside_ofValue (.inr (hlist _ _))
    | _ => exact composite_enclose (hlist _ _) _ _
  | firstKey =>
    by_cases ht : t = .closeObject
    · subst ht
      exact inside_ofValue (.inr (hobject _ _))
    · rw [step_firstKey ht]
      exact inside_keyStep [] t
  | nextKey done =>
    by_cases ht : t = .closeObject
    · subst ht
      exact composite_enclose (hobject _ _) _ _
    · rw [step_nextKey ht]
      exact inside_keyStep done t
  | afterKey done key =>
    cases t with
    | colon => exact .inl (List.cons_ne_nil _ _)
    | _ => exact composite_enclose (by intro v hv; cases hv) _ _
  | afterMember done =>
    cases t with
    | comma => exact .inr (by simp)
    | closeObject => exact inside_ofValue (.inr (hobject _ _))
    | _ => exact composite_enclose (hobject _ _) _ _

/-- Inside a list or an object the scan never becomes a single value. -/
theorem composite_scanFrom {place : Place} (h : frames ≠ [] ∨ place ≠ .value) (ts : List Token) :
    (scanFrom frames place ts).root.Composite := by
  induction ts generalizing frames place with
  | nil => cases place <;> exact composite_enclose (by intro v hv; cases hv) _ _
  | cons t ts ih =>
    have hstep := inside_step h t
    rw [scanFrom_cons]
    cases hs : step frames place t with
    | next frames' place' =>
      rw [hs] at hstep
      exact ih hstep
    | complete root =>
      rw [hs] at hstep
      exact hstep
    | broken root =>
      rw [hs] at hstep
      exact hstep

theorem toJson_ne_number {s : Scan} (h : s.Composite) (room : Nat) (n : Number) :
    s.toJson room ≠ .ok (.number n) := by
  intro hs
  cases s with
  | scalar v => exact h v rfl
  | broken stop => cases hs
  | list items stop =>
    cases room with
    | zero => cases hs
    | succ room =>
      simp only [Scan.toJson, bind_eq_ok, pure_eq_ok] at hs
      obtain ⟨_, -, _, -, hs⟩ := hs
      cases hs
  | object members stop =>
    cases room with
    | zero => cases hs
    | succ room =>
      simp only [Scan.toJson, bind_eq_ok, pure_eq_ok] at hs
      obtain ⟨_, -, _, -, hs⟩ := hs
      cases hs

/-- A text that is read as a number is one token. -/
theorem tokens_of_parse_eq_number {text : String} {n : Number}
    (h : parse text = .ok (.number n)) : tokens text.toList = [.plain (.ok (.number n))] := by
  simp only [parse, bind_eq_ok, pure_eq_ok] at h
  obtain ⟨tree, htree, _, hended, rfl⟩ := h
  rw [scan] at htree hended
  cases hts : tokens text.toList with
  | nil =>
    rw [hts] at htree
    cases htree
  | cons t ts =>
    rw [hts, scanFrom_cons] at htree hended
    cases t with
    | plain v =>
      change v = .ok (.number n) at htree
      subst htree
      change Scanned.ended ⟨_, !ts.isEmpty⟩ = _ at hended
      cases ts with
      | nil => rfl
      | cons t ts => cases hended
    | text v =>
      change v.map Json.text = .ok (.number n) at htree
      rw [map_eq_ok] at htree
      obtain ⟨s, -, hs⟩ := htree
      cases hs
    | openList =>
      exact absurd htree (toJson_ne_number (composite_scanFrom (.inr (by simp)) ts) _ _)
    | openObject =>
      exact absurd htree (toJson_ne_number (composite_scanFrom (.inr (by simp)) ts) _ _)
    | _ => cases htree

end ColumnIndex.Json
