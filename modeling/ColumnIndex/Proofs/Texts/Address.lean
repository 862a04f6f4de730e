import ColumnIndex.Network.Address
import ColumnIndex.Proofs.Texts.Visible

/-!
# Addresses are read back

The canonical text of an address of either kind is read as that address. What is short in the text
of a long one, the double colon for a run of zeros and the embedded short address, stands for the
groups that were left out.

## Main definitions

* `Address.colonGroups` — groups with a colon before each of them.
* `Address.EndsGroups` — where a series of groups ends.
* `Address.ZeroRun.IsIn` — a run of zeros in groups.

Main statement: `Address.parse?_chars`.
-/
namespace ColumnIndex.Address

variable {cs rest : List Char}

/-! ## Numbers -/

/-- Digits within the limits are read as a number up to what follows them. -/
theorem number?_append {value? : Char → Option Nat} {radix most limit n : Nat} {zeros : Bool}
    {digits : List Char} (hdigits : ∀ c ∈ digits, (value? c).isSome)
    (hrest : ∀ c ∈ rest.head?, value? c = none) (hne : digits ≠ [])
    (hmost : digits.length ≤ most)
    (hn : digits.foldl (fun n c => radix * n + (value? c).getD 0) 0 = n) (hlimit : n < limit)
    (hzeros : zeros ∨ digits.head? ≠ some '0' ∨ digits.length = 1) :
    number? value? radix most limit zeros (digits ++ rest) = some (n, rest) := by
  have htake : (digits ++ rest).takeWhile (fun c => (value? c).isSome) = digits := by
    rw [List.takeWhile_append_of_pos hdigits]
    cases rest with
    | nil => simp
    | cons c rest => simp [hrest c rfl]
  have hempty : digits.isEmpty = false := by simp [hne]
  have hstart : (!zeros && digits.head? == some '0' && decide (1 < digits.length)) = false := by
    rcases hzeros with hzeros | hhead | hlength
    · simp [hzeros]
    · simp [hhead]
    · simp [hlength]
  simp only [number?, htake, hn, hempty, hstart, List.drop_left]
  simp
  omega

/-- A byte is read where it was written. -/
theorem byte?_append (a : UInt8) (hrest : ∀ c ∈ rest.head?, Text.isDigit c = false) :
    byte? (Text.digitsOf a.toNat ++ rest) = some (a.toNat, rest) := by
  have ha : a.toNat < 256 := a.toNat_lt
  apply number?_append
  · intro c hc
    simp [Text.isDigit_of_mem_digitsOf hc]
  · intro c hc
    simp [hrest c hc]
  · exact Text.digitsOf_ne_nil _
  · exact (Nat.length_toDigits_le_iff (by decide) (by decide)).2 (by omega)
  · exact Text.foldl_toDigits (by decide) (by decide) _
  · exact ha
  · by_cases hzero : a.toNat = 0
    · exact .inr (.inr (by simp [hzero, Text.digitsOf]))
    · exact .inr (.inl (Text.head?_digitsOf_ne hzero))

/-- A group is read where it was written. -/
theorem group?_append (g : UInt16) (hrest : ∀ c ∈ rest.head?, Text.hexValue? c = none) :
    group? (Text.hexOfNat g.toNat ++ rest) = some (g.toNat, rest) := by
  have hg : g.toNat < 65536 := g.toNat_lt
  apply number?_append
  · intro c hc
    obtain ⟨d, hd, rfl⟩ := Text.exists_digitChar_of_mem (by decide) hc
    have every : ∀ d < 16, (Text.hexValue? (Nat.digitChar d)).isSome := by decide
    exact every d hd
  · exact hrest
  · exact Nat.toDigits_ne_nil
  · exact (Nat.length_toDigits_le_iff (by decide) (by decide)).2 (by omega)
  · exact Text.foldl_toDigits (by decide) (by decide) _
  · exact hg
  · exact .inl rfl

/-- The bytes of a short address are read where it was written. -/
theorem bytes?_shortChars (a b c d : UInt8) (hrest : ∀ c ∈ rest.head?, Text.isDigit c = false) :
    bytes? (shortChars a b c d ++ rest)
      = some ((a.toNat, b.toNat, c.toNat, d.toNat), rest) := by
  have hpoint : ∀ cs : List Char, ∀ c ∈ ('.' :: cs).head?, Text.isDigit c = false := by
    rintro cs c ⟨⟩
    rfl
  have hafter : ∀ cs : List Char, after? '.' ('.' :: cs) = some cs := fun _ => rfl
  simp only [bytes?, shortChars, List.append_assoc, List.cons_append, Option.bind_eq_bind,
    byte?_append _ (hpoint _), byte?_append _ hrest, Option.bind_some, hafter]
  rfl

/-- The bytes of a short address are read, if nothing follows it. -/
theorem bytes?_shortChars_nil (a b c d : UInt8) :
    bytes? (shortChars a b c d) = some ((a.toNat, b.toNat, c.toNat, d.toNat), []) := by
  have hnil : ∀ c ∈ ([] : List Char).head?, Text.isDigit c = false := by simp
  have hbytes := bytes?_shortChars a b c d hnil
  rwa [List.append_nil] at hbytes

/-! ## Texts without points -/

theorem mem_of_after? {c : Char} (h : after? c cs = some rest) : c ∈ cs := by
  cases cs with
  | nil => cases h
  | cons d cs =>
    by_cases hd : d = c
    · simp [hd]
    · simp [after?, hd] at h

theorem subset_of_byte? {n : Nat} (h : byte? cs = some (n, rest)) : rest ⊆ cs := by
  simp only [byte?, number?] at h
  split at h
  · cases h
  split at h
  · cases h
  cases h
  exact List.drop_subset ..

/-- A short address has points in it. -/
theorem bytes?_eq_none (h : '.' ∉ cs) : bytes? cs = none := by
  rw [bytes?]
  cases hbyte : byte? cs with
  | none => rfl
  | some read =>
    have hafter : after? '.' read.2 = none := by
      rw [Option.eq_none_iff_forall_not_mem]
      intro after hmem
      exact h (subset_of_byte? hbyte (mem_of_after? hmem))
    simp [hafter]


/-! ## Groups -/

/-- Groups with a colon before each of them. -/
def colonGroups (gs : List UInt16) : List Char :=
  gs.flatMap fun g => ':' :: Text.hexOfNat g.toNat

theorem groupChars_cons (g : UInt16) (gs : List UInt16) :
    groupChars (g :: gs) = Text.hexOfNat g.toNat ++ colonGroups gs := by
  induction gs generalizing g with
  | nil => simp [groupChars, colonGroups, List.intercalate]
  | cons h hs ih =>
    have hnext : groupChars (g :: h :: hs)
        = Text.hexOfNat g.toNat ++ ':' :: groupChars (h :: hs) := by
      simp [groupChars, List.intercalate]
    rw [hnext, ih]
    simp [colonGroups]

theorem not_mem_hexOfNat {c : Char} (hc : ∀ d < 16, c ≠ Nat.digitChar d) (n : Nat) :
    c ∉ Text.hexOfNat n := by
  intro hmem
  obtain ⟨d, hd, rfl⟩ := Text.exists_digitChar_of_mem (by decide) hmem
  exact hc d hd rfl

theorem not_mem_colonGroups (gs : List UInt16) : '.' ∉ colonGroups gs := by
  intro hmem
  obtain ⟨g, -, hmem⟩ := List.mem_flatMap.1 hmem
  rcases List.mem_cons.1 hmem with hcolon | hmem
  · cases hcolon
  · exact not_mem_hexOfNat (by decide) _ hmem

theorem not_mem_groupChars (gs : List UInt16) : '.' ∉ groupChars gs := by
  cases gs with
  | nil => simp [groupChars, List.intercalate]
  | cons g gs =>
    rw [groupChars_cons, List.mem_append]
    rintro (hmem | hmem)
    · exact not_mem_hexOfNat (by decide) _ hmem
    · exact not_mem_colonGroups gs hmem

/-- Where a series of groups ends: at the end of the text or before a double colon. -/
structure EndsGroups (rest : List Char) : Prop where
  noPoint : '.' ∉ rest
  noDigit : ∀ c ∈ rest.head?, Text.hexValue? c = none
  noGroup : (after? ':' rest).bind group? = none

theorem endsGroups_nil : EndsGroups [] := ⟨by simp, by simp, rfl⟩

theorem endsGroups_doubleColon {cs : List Char} (h : '.' ∉ cs) :
    EndsGroups (':' :: ':' :: cs) :=
  ⟨by simp [h], by rintro c ⟨⟩; rfl, rfl⟩

theorem group?_eq_none (hrest : ∀ c ∈ rest.head?, Text.hexValue? c = none) :
    group? rest = none := by
  cases rest with
  | nil => rfl
  | cons c rest => simp [group?, number?, hrest c rfl]

theorem bytes?_after_eq_none (h : '.' ∉ cs) : (after? ':' cs).bind bytes? = none := by
  cases cs with
  | nil => rfl
  | cons c cs =>
    by_cases hc : c = ':'
    · have hcs : '.' ∉ cs := fun hmem => h (List.mem_cons_of_mem _ hmem)
      simp [after?, hc, bytes?_eq_none hcs]
    · simp [after?, hc]

/-- What may stand behind the groups of a series stands behind one of its groups. -/
theorem head?_colonGroups (gs : List UInt16) (hrest : EndsGroups rest) :
    ∀ c ∈ (colonGroups gs ++ rest).head?, Text.hexValue? c = none := by
  cases gs with
  | nil => exact hrest.noDigit
  | cons g gs =>
    rintro c ⟨⟩
    rfl

/-- The group at the start of a series is read, and then the others. -/
theorem groups_cons (first : Bool) (g : UInt16) (gs : List UInt16) (hrest : EndsGroups rest)
    (room : Nat) :
    groups first (room + 1)
        ((if first then [] else [':']) ++ Text.hexOfNat g.toNat ++ (colonGroups gs ++ rest))
      = (g.toNat :: (groups false room (colonGroups gs ++ rest)).1,
        (groups false room (colonGroups gs ++ rest)).2) := by
  have hpoint : '.' ∉ Text.hexOfNat g.toNat ++ (colonGroups gs ++ rest) := by
    simp only [List.mem_append, not_or]
    exact ⟨not_mem_hexOfNat (by decide) _, not_mem_colonGroups gs, hrest.noPoint⟩
  have hstart : (if first then
        some ((if first then [] else [':']) ++ Text.hexOfNat g.toNat ++ (colonGroups gs ++ rest))
      else after? ':'
        ((if first then [] else [':']) ++ Text.hexOfNat g.toNat ++ (colonGroups gs ++ rest)))
      = some (Text.hexOfNat g.toNat ++ (colonGroups gs ++ rest)) := by
    cases first
    · rfl
    · rfl
  have hbytes : (if room = 0 then none
      else (some (Text.hexOfNat g.toNat ++ (colonGroups gs ++ rest))).bind bytes?) = none := by
    split
    · rfl
    · exact bytes?_eq_none hpoint
  rw [groups, hstart, hbytes]
  simp only [Option.bind_some, group?_append g (head?_colonGroups gs hrest)]

/-- Groups are read up to where they end. -/
theorem groups_colonGroups {gs : List UInt16} (hrest : EndsGroups rest) {room : Nat}
    (hroom : gs.length ≤ room) :
    groups false room (colonGroups gs ++ rest) = (gs.map UInt16.toNat, false, rest) := by
  induction gs generalizing room with
  | nil =>
    cases room with
    | zero => rfl
    | succ room =>
      simp [groups, colonGroups, bytes?_after_eq_none hrest.noPoint, hrest.noGroup]
  | cons g gs ih =>
    obtain ⟨room, rfl⟩ : ∃ n, room = n + 1 := ⟨room - 1, by simp at hroom; omega⟩
    have hgroups := groups_cons false g gs hrest room
    rw [ih (by simpa using hroom)] at hgroups
    simpa [colonGroups] using hgroups

/-- A series of groups is read up to where it ends. -/
theorem groups_groupChars (gs : List UInt16) (hrest : EndsGroups rest) (room : Nat)
    (hroom : gs.length ≤ room) :
    groups true room (groupChars gs ++ rest) = (gs.map UInt16.toNat, false, rest) := by
  cases gs with
  | nil =>
    cases room with
    | zero => rfl
    | succ room =>
      simp [groups, groupChars, List.intercalate, bytes?_eq_none hrest.noPoint,
        group?_eq_none hrest.noDigit]
  | cons g gs =>
    obtain ⟨room, rfl⟩ : ∃ n, room = n + 1 := ⟨room - 1, by simp at hroom; omega⟩
    have hgroups := groups_cons true g gs hrest room
    rw [groups_colonGroups hrest (by simpa using hroom)] at hgroups
    simpa [groupChars_cons] using hgroups

/-! ## Long addresses -/

theorem ofGroups?_toNat {gs : List UInt16} (h : gs.length = 8) :
    ofGroups? (gs.map UInt16.toNat) = some (long gs h) := by
  have hmap : (gs.map UInt16.toNat).map UInt16.ofNat = gs := by
    simp [Function.comp_def]
  simp [ofGroups?, hmap, h]

/-- Eight groups are read without a double colon. -/
theorem parseLong?_groupChars {gs : List UInt16} (h : gs.length = 8) :
    parseLong? (groupChars gs) = some (long gs h) := by
  have hgroups := groups_groupChars gs endsGroups_nil 8 (by omega)
  rw [List.append_nil] at hgroups
  rw [parseLong?, hgroups]
  simp [h, ofGroups?_toNat h]

/-- The groups on either side of a double colon are read, and the zeros between them. -/
theorem parseLong?_doubleColon {before after : List UInt16}
    (hroom : before.length + after.length ≤ 6)
    (h : (before ++ List.replicate (8 - before.length - after.length) 0 ++ after).length = 8) :
    parseLong? (groupChars before ++ ':' :: ':' :: groupChars after)
      = some (long (before ++ List.replicate (8 - before.length - after.length) 0 ++ after) h) := by
  have hbefore :=
    groups_groupChars before (endsGroups_doubleColon (not_mem_groupChars after)) 8 (by omega)
  have hafter := groups_groupChars after endsGroups_nil (7 - before.length) (by omega)
  have hlong := ofGroups?_toNat h
  rw [List.append_nil] at hafter
  rw [parseLong?, hbefore]
  simp [after?, hafter, show before.length ≠ 8 by omega]
  simpa using hlong


/-! ## Runs of zeros -/

/-- Whether the groups have zeros at the place of a run. -/
def ZeroRun.IsIn (r : ZeroRun) (gs : List UInt16) : Prop :=
  ∃ before after, gs = before ++ List.replicate r.length 0 ++ after ∧ before.length = r.start

/-- Whether groups end with a run, if it is not empty. -/
def ZeroRun.IsEndOf (r : ZeroRun) (gs : List UInt16) : Prop :=
  ∃ before, gs = before ++ List.replicate r.length 0 ∧ (r.length ≠ 0 → before.length = r.start)

/-- The run that the next zero makes of the one before it. -/
theorem ZeroRun.IsEndOf.grow {r : ZeroRun} {gs : List UInt16} (h : r.IsEndOf gs) :
    (if r.length = 0 then (⟨gs.length, 1⟩ : ZeroRun) else ⟨r.start, r.length + 1⟩).IsEndOf
      (gs ++ [0]) := by
  obtain ⟨before, rfl, hstart⟩ := h
  by_cases hr : r.length = 0
  · exact ⟨before, by simp [hr], by simp [hr]⟩
  · refine ⟨before, ?_, fun _ => by simpa [hr] using hstart hr⟩
    simp [hr, List.replicate_succ']

theorem ZeroRun.IsEndOf.isIn {r : ZeroRun} {gs : List UInt16} (h : r.IsEndOf gs)
    (hr : r.length ≠ 0) (after : List UInt16) : r.IsIn (gs ++ after) := by
  obtain ⟨before, rfl, hstart⟩ := h
  exact ⟨before, after, rfl, hstart hr⟩

/-- A run that is found is one, if the runs found so far are. -/
theorem isIn_longestFrom (past : List UInt16) {gs : List UInt16} {current best : ZeroRun}
    (hcurrent : current.IsEndOf past) (hbest : best.IsIn (past ++ gs)) :
    (longestFrom past.length current best gs).IsIn (past ++ gs) := by
  induction gs generalizing past current best with
  | nil => exact hbest
  | cons g gs ih =>
    have hpast : past ++ g :: gs = (past ++ [g]) ++ gs := by simp
    have hlength : past.length + 1 = (past ++ [g]).length := by simp
    rw [hpast] at hbest ⊢
    rw [longestFrom, hlength]
    by_cases hg : g = 0
    · subst hg
      have hgrow := hcurrent.grow
      simp only [if_pos]
      generalize (if current.length = 0 then (⟨past.length, 1⟩ : ZeroRun)
        else ⟨current.start, current.length + 1⟩) = next at hgrow ⊢
      refine ih _ hgrow ?_
      by_cases hlonger : best.length < next.length
      · rw [if_pos hlonger]
        exact hgrow.isIn (by omega) gs
      · rwa [if_neg hlonger]
    · rw [if_neg hg]
      exact ih _ ⟨past ++ [g], by simp, by simp⟩ hbest

theorem isIn_longestZeroRun (gs : List UInt16) : (longestZeroRun gs).IsIn gs :=
  isIn_longestFrom [] ⟨[], rfl, by simp⟩ ⟨[], gs, rfl, rfl⟩

/-! ## Reading back -/

theorem groupBytes_toNat (g : UInt16) :
    256 * (groupBytes g).1.toNat + (groupBytes g).2.toNat = g.toNat := by
  have hg : g.toNat < 65536 := g.toNat_lt
  simp only [groupBytes, UInt8.toNat_ofNat']
  omega

/-- A short address behind its mark is read as the two groups at the end of a long one. -/
theorem parseLong?_embedded (high low : UInt16)
    (h : [0, 0, 0, 0, 0, 0xffff, high, low].length = 8) :
    parseLong? ("::ffff:".toList ++ shortChars (groupBytes high).1 (groupBytes high).2
        (groupBytes low).1 (groupBytes low).2)
      = some (long [0, 0, 0, 0, 0, 0xffff, high, low] h) := by
  have hbytes := bytes?_shortChars_nil (groupBytes high).1 (groupBytes high).2 (groupBytes low).1
    (groupBytes low).2
  generalize shortChars (groupBytes high).1 (groupBytes high).2 (groupBytes low).1
    (groupBytes low).2 = cs at hbytes ⊢
  have hbefore : groups true 8 ("::ffff:".toList ++ cs) = ([], false, "::ffff:".toList ++ cs) := rfl
  have hlast : groups false 6 (':' :: cs) = ([high.toNat, low.toNat], true, []) := by
    simp [groups, after?, hbytes, groupBytes_toNat]
  have hafter : groups true 7 ('f' :: 'f' :: 'f' :: 'f' :: ':' :: cs)
      = ([0xffff, high.toNat, low.toNat], true, []) := by
    have hgroup : group? ('f' :: 'f' :: 'f' :: 'f' :: ':' :: cs) = some (0xffff, ':' :: cs) := rfl
    have hnone : bytes? ('f' :: 'f' :: 'f' :: 'f' :: ':' :: cs) = none := rfl
    rw [groups, if_pos rfl, Option.bind_some, Option.bind_some, hnone, hgroup]
    simp [hlast]
  have hlong := ofGroups?_toNat h
  rw [parseLong?, hbefore]
  simpa [after?, hafter] using hlong

/-- A long address is read back from its text. -/
theorem parseLong?_longChars {gs : List UInt16} (h : gs.length = 8) :
    parseLong? (longChars gs) = some (long gs h) := by
  unfold longChars
  split
  · exact parseLong?_embedded _ _ h
  · have hrun := isIn_longestZeroRun gs
    dsimp only
    generalize longestZeroRun gs = run at hrun ⊢
    by_cases hlong : 1 < run.length
    · obtain ⟨before, after, rfl, hstart⟩ := hrun
      have hlength : before.length + run.length + after.length = 8 := by
        simpa [Nat.add_assoc] using h
      have hzeros : 8 - before.length - after.length = run.length := by omega
      have hbefore : (before ++ List.replicate run.length 0 ++ after).take run.start = before := by
        simp [← hstart]
      have hafter : (before ++ List.replicate run.length 0 ++ after).drop (run.start + run.length)
          = after := by
        simp [← hstart]
      rw [if_pos hlong, hbefore, hafter, parseLong?_doubleColon (by omega) (by rw [hzeros, h])]
      simp only [hzeros]
    · rw [if_neg hlong]
      exact parseLong?_groupChars h

/-- A long address is no short one, even if it shows one at its end. -/
theorem bytes?_longChars (gs : List UInt16) : bytes? (longChars gs) = none := by
  unfold longChars
  split
  · rfl
  · apply bytes?_eq_none
    dsimp only
    split
    · simp [not_mem_groupChars]
    · exact not_mem_groupChars gs

/-- An address is read back from its text. -/
theorem parse?_chars (a : Address) : parse? a.chars = some a := by
  cases a with
  | short a b c d =>
    have hbytes := bytes?_shortChars_nil a b c d
    simp [parse?, parseShort?, chars, hbytes]
  | long gs h => simp [parse?, parseShort?, chars, bytes?_longChars, parseLong?_longChars h]

/-! ## Characters -/

theorem isVisible_of_mem_shortChars {a b c d : UInt8} {x : Char} (h : x ∈ shortChars a b c d) :
    Text.IsVisible x := by
  have hdigits : ∀ n : Nat, x ∈ Text.digitsOf n → Text.IsVisible x := fun _ =>
    Text.isVisible_of_mem_toDigits (by decide) (by decide)
  simp only [shortChars, List.mem_append, List.mem_cons] at h
  rcases h with ((h | rfl | h) | rfl | h) | rfl | h
  · exact hdigits _ h
  · decide
  · exact hdigits _ h
  · decide
  · exact hdigits _ h
  · decide
  · exact hdigits _ h

theorem isVisible_of_mem_groupChars {gs : List UInt16} {x : Char} (h : x ∈ groupChars gs) :
    Text.IsVisible x := by
  have hdigits : ∀ n : Nat, x ∈ Text.hexOfNat n → Text.IsVisible x := fun _ =>
    Text.isVisible_of_mem_toDigits (by decide) (by decide)
  cases gs with
  | nil => simp [groupChars, List.intercalate] at h
  | cons g gs =>
    rw [groupChars_cons, List.mem_append] at h
    rcases h with h | h
    · exact hdigits _ h
    · obtain ⟨g, -, h⟩ := List.mem_flatMap.1 h
      rcases List.mem_cons.1 h with rfl | h
      · decide
      · exact hdigits _ h

/-- The text of a long address has no blank character. -/
theorem isVisible_of_mem_longChars {gs : List UInt16} {x : Char} (h : x ∈ longChars gs) :
    Text.IsVisible x := by
  unfold longChars at h
  split at h
  · have hmark : x ∈ [':', ':', 'f', 'f', 'f', 'f', ':'] → Text.IsVisible x := by
      intro hx
      simp only [List.mem_cons, List.not_mem_nil, or_false] at hx
      rcases hx with rfl | rfl | rfl | rfl | rfl | rfl | rfl <;> decide
    rcases List.mem_append.1 h with h | h
    · exact hmark h
    · exact isVisible_of_mem_shortChars h
  · dsimp only at h
    split at h
    · simp only [List.mem_append, List.mem_cons] at h
      rcases h with h | rfl | rfl | h
      · exact isVisible_of_mem_groupChars h
      · decide
      · decide
      · exact isVisible_of_mem_groupChars h
    · exact isVisible_of_mem_groupChars h

theorem isVisible_of_mem_chars {a : Address} {x : Char} (h : x ∈ a.chars) : Text.IsVisible x := by
  cases a with
  | short a b c d => exact isVisible_of_mem_shortChars h
  | long gs hgs => exact isVisible_of_mem_longChars h

end ColumnIndex.Address
