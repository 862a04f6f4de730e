import ColumnIndex.Proofs.ConditionDrafts
import ColumnIndex.Proofs.RereadConditions

/-!
# Faults that are lost on the way

A draft of a condition that is not built should not become one that is built, only because it was
written and read. Two faults are lost all the same. A boost that is not finite is written as null,
and is not set where it is read. And edges of a box that are not in order may be read in order, if
they are so close that the reading takes them for equal. All other faults arrive.

## Main definitions

* `Condition.Draft.cleared` — the draft without the faults that are lost.

Main statement: `Condition.Draft.not_built_of_decode`.
-/
namespace ColumnIndex.Condition.Draft

open Wire

/-! ## What is lost -/

/-- Two edges in the order in which they are read, if they are not in order otherwise. -/
def inOrder (low high : Double) : Double × Double :=
  if high.lt low && !high.reread.lt low.reread then (high, low) else (low, high)

/-- The box with its edges in order, if they are read so. -/
def clearedBox (box : GeoBox) : GeoBox :=
  let latitudes := inOrder box.minLatitude box.maxLatitude
  let longitudes := inOrder box.minLongitude box.maxLongitude
  ⟨latitudes.1, latitudes.2, longitudes.1, longitudes.2⟩

/-- The leaf without the faults that are lost. -/
def Leaf.cleared : Leaf → Leaf
  | geoBox field box => geoBox field (clearedBox box)
  | l => l

/-- The boost, unless it is not finite. -/
def clearedBoost (boost : Option Single) : Option Single := boost.filter (·.isFinite)

mutual

/-- The draft without the faults that are lost. -/
def cleared : Draft → Draft
  | all boost => all (clearedBoost boost)
  | nothing boost => nothing (clearedBoost boost)
  | boolean boost must should not =>
    boolean (clearedBoost boost) (clearedAll must) (clearedAll should) (clearedAll not)
  | leaf boost l => leaf (clearedBoost boost) l.cleared

/-- The drafts without the faults that are lost. -/
def clearedAll : List Draft → List Draft
  | [] => []
  | d :: ds => cleared d :: clearedAll ds

end

/-! ## Nothing to clear -/

theorem clearedBoost_eq {boost : Option Single} (h : ∀ x ∈ boost, x.IsPositive) :
    clearedBoost boost = boost := by
  cases boost with
  | none => rfl
  | some x => exact Option.filter_some_pos (h x rfl).1

theorem inOrder_eq {limit : Rat} {low high : Double} (hlow : Geo.IsWithin limit low)
    (hhigh : Geo.IsWithin limit high) (h : low.toRat ≤ high.toRat) :
    inOrder low high = (low, high) := by
  have horder : high.lt low = false := by
    rw [← Bool.not_eq_true, BinaryFloat.lt_iff hhigh.1 hlow.1]
    exact h.not_gt
  rw [inOrder, horder]
  rfl

theorem Leaf.Valid.cleared_eq {l : Leaf} (h : l.Valid) : l.cleared = l := by
  cases l with
  | geoBox field box =>
    obtain ⟨-, hbox⟩ := h
    rw [cleared, clearedBox, inOrder_eq hbox.minLatitude hbox.maxLatitude hbox.latitudes,
      inOrder_eq hbox.minLongitude hbox.maxLongitude hbox.longitudes]
  | _ => rfl

mutual

/-- A draft that is built has no faults that are lost. -/
theorem Valid.cleared_eq : ∀ {d : Draft}, d.Valid → d.cleared = d
  | .all _, .all hboost => by rw [cleared, clearedBoost_eq hboost]
  | .nothing _, .nothing hboost => by rw [cleared, clearedBoost_eq hboost]
  | .boolean _ must should not, .boolean hboost hmust hshould hnot => by
    rw [cleared, clearedBoost_eq hboost, clearedAll_eq hmust, clearedAll_eq hshould,
      clearedAll_eq hnot]
  | .leaf _ _, .leaf hboost hl => by rw [cleared, clearedBoost_eq hboost, hl.cleared_eq]

theorem clearedAll_eq : ∀ {ds : List Draft}, (∀ d ∈ ds, d.Valid) → clearedAll ds = ds
  | [], _ => rfl
  | d :: ds, h => by
    rw [List.forall_mem_cons] at h
    rw [clearedAll, h.1.cleared_eq, clearedAll_eq h.2]

end

/-! ## What arrives makes sense only if the rest does -/

theorem isPositive_clearedBoost {boost : Option Single}
    (h : ∀ x ∈ rereadBoost boost, x.IsPositive) : ∀ x ∈ clearedBoost boost, x.IsPositive := by
  intro x hx
  rw [clearedBoost, Option.mem_filter_iff] at hx
  have hmem : x.reread ∈ rereadBoost boost :=
    Option.mem_map_of_mem _ (Option.mem_filter_iff.2 hx)
  exact Single.isPositive_of_reread hx.2 (h _ hmem)

/-- Edges that are read in order are in order when they are cleared, and each is one of the two. -/
theorem inOrder_spec {limit : Rat} {low high : Double} (hlow : Geo.IsWithin limit low)
    (hhigh : Geo.IsWithin limit high) (hlow' : low.reread.isFinite) (hhigh' : high.reread.isFinite)
    (h : low.reread.toRat ≤ high.reread.toRat) :
    Geo.IsWithin limit (inOrder low high).1 ∧ Geo.IsWithin limit (inOrder low high).2 ∧
      (inOrder low high).1.toRat ≤ (inOrder low high).2.toRat := by
  have hread : high.reread.lt low.reread = false := by
    rw [← Bool.not_eq_true, BinaryFloat.lt_iff hhigh' hlow']
    exact h.not_gt
  rw [inOrder, hread, Bool.not_false, Bool.and_true]
  split
  · rename_i horder
    rw [BinaryFloat.lt_iff hhigh.1 hlow.1] at horder
    exact ⟨hhigh, hlow, horder.le⟩
  · rename_i horder
    rw [BinaryFloat.lt_iff hhigh.1 hlow.1, not_lt] at horder
    exact ⟨hlow, hhigh, horder⟩

/-- A box that is proper where it is read is proper once it is cleared. -/
theorem isProper_clearedBox {box : GeoBox} (h₁ : box.minLatitude.isFinite)
    (h₂ : box.maxLatitude.isFinite) (h₃ : box.minLongitude.isFinite)
    (h₄ : box.maxLongitude.isFinite) (h : (rereadBox box).IsProper) :
    (clearedBox box).IsProper := by
  obtain ⟨hsouth, hnorth, hlatitudes⟩ := inOrder_spec (Geo.isLatitude_of_reread h₁ h.minLatitude)
    (Geo.isLatitude_of_reread h₂ h.maxLatitude) h.minLatitude.1 h.maxLatitude.1 h.latitudes
  obtain ⟨hwest, heast, hlongitudes⟩ :=
    inOrder_spec (Geo.isLongitude_of_reread h₃ h.minLongitude)
      (Geo.isLongitude_of_reread h₄ h.maxLongitude) h.minLongitude.1 h.maxLongitude.1 h.longitudes
  exact ⟨hsouth, hnorth, hwest, heast, hlatitudes, hlongitudes⟩

theorem ne_null_of_readLiteral {v w : Value} (h : readLiteral v.written.reread = .ok w)
    (hw : w ≠ .null) : v ≠ .null := by
  rintro rfl
  exact hw (Except.ok.inj h).symm

/-- A leaf makes sense, but for the faults that are lost, if what arrives of it does. -/
theorem Leaf.Arrives.valid_cleared {l l' : Leaf} (h : l.Arrives l') (hvalid : l'.Valid) :
    l.cleared.Valid := by
  cases h with
  | pattern => exact hvalid
  | fuzzy => exact hvalid
  | phrase => exact hvalid
  | literal hread => exact ⟨hvalid.1, ne_null_of_readLiteral hread hvalid.2⟩
  | @contains field vs ws hread =>
    obtain ⟨hfield, hne, hvalues⟩ := hvalid
    refine ⟨hfield, ?_, fun v hv => ?_⟩
    · rintro rfl
      cases hread
      exact hne rfl
    · obtain ⟨w, hw, hvw⟩ := Outcome.exists_of_forall₂ hread.flip hv
      exact ne_null_of_readLiteral hvw (hvalues w hw)
  | range _ _ => exact hvalid
  | geoBox h₁ h₂ h₃ h₄ => exact ⟨hvalid.1, isProper_clearedBox h₁ h₂ h₃ h₄ hvalid.2⟩
  | geoDistance h₁ h₂ =>
    obtain ⟨hfield, hlatitude, hlongitude, hdistances⟩ := hvalid
    exact ⟨hfield, Geo.isLatitude_of_reread h₁ hlatitude, Geo.isLongitude_of_reread h₂ hlongitude,
      hdistances⟩

mutual

/-- A draft makes sense, but for the faults that are lost, if what arrives of it does. -/
theorem Arrives.valid_cleared : ∀ {d d' : Draft}, d.Arrives d' → d'.Valid → d.cleared.Valid
  | .all _, _, .all, .all hboost => .all (isPositive_clearedBoost hboost)
  | .nothing _, _, .nothing, .nothing hboost => .nothing (isPositive_clearedBoost hboost)
  | .boolean _ _ _ _, _, .boolean hmust hshould hnot, .boolean hboost hmusts hshoulds hnots =>
    .boolean (isPositive_clearedBoost hboost) (valid_clearedAll hmust hmusts)
      (valid_clearedAll hshould hshoulds) (valid_clearedAll hnot hnots)
  | .leaf _ _, _, .leaf hl, .leaf hboost hvalid =>
    .leaf (isPositive_clearedBoost hboost) (hl.valid_cleared hvalid)

theorem valid_clearedAll : ∀ {ds ds' : List Draft}, List.Forall₂ Arrives ds ds' →
    (∀ d' ∈ ds', d'.Valid) → ∀ d ∈ clearedAll ds, d.Valid
  | [], _, _, _ => by simp [clearedAll]
  | _ :: _, _, .cons hd hds, h => by
    rw [List.forall_mem_cons] at h
    rw [clearedAll, List.forall_mem_cons]
    exact ⟨hd.valid_cleared h.1, valid_clearedAll hds h.2⟩

end

/-! ## Decoding -/

/-- Exactly the drafts that do not make sense are not built. -/
theorem exists_fault_iff {d : Draft} : (∃ fault, d.build = .error fault) ↔ ¬d.Valid := by
  constructor
  · rintro ⟨fault, hfault⟩ hvalid
    obtain ⟨c, hgives, -⟩ := hvalid.exists_gives
    rw [build_eq_ok.2 ⟨hvalid, hgives⟩] at hfault
    cases hfault
  · intro hvalid
    cases hbuild : d.build with
    | error fault => exact ⟨fault, rfl⟩
    | ok c => exact absurd (build_eq_ok.1 hbuild).1 hvalid

theorem reread_infinity : (Json.number (.single (.infinity false))).reread = .null :=
  Json.reread_single_null (by decide)

/-- A draft that is not built is still not built once it was written and decoded, unless all its
faults are such as are lost. -/
theorem not_built_of_decode {d d' : Draft} (hbuild : ∃ fault, d.build = .error fault)
    (hfaults : d.cleared = d ∨ ∃ fault, d.cleared.build = .error fault)
    (hread : (decode d.text).result = .ok d') : ∃ fault, d'.build = .error fault := by
  have hcleared : ¬d.cleared.Valid := by
    rcases hfaults with heq | hcleared
    · rw [heq]
      exact exists_fault_iff.1 hbuild
    · exact exists_fault_iff.1 hcleared
  rw [exists_fault_iff]
  exact fun hvalid => hcleared ((arrives_of_decode hread).valid_cleared hvalid)

/-- A condition with an infinite boost and a blank text: the boost is lost, the text is not. -/
def sampleBlank : Draft :=
  .boolean (some (.infinity false)) [.leaf none (.pattern .wildcard "title" " ")] [] []

theorem not_built_of_decode_blank :
    let arrived : Draft := .boolean none [.leaf none (.pattern .wildcard "title" " ")] [] []
    (∃ fault, sampleBlank.build = .error fault) ∧
      (decode sampleBlank.text).result = .ok arrived ∧ ∃ fault, arrived.build = .error fault := by
  intro arrived
  have hbuild : ∃ fault, sampleBlank.build = .error fault := ⟨_, rfl⟩
  have hfaults : ∃ fault, sampleBlank.cleared.build = .error fault := ⟨_, rfl⟩
  have htree : sampleBlank.toJson.reread
      = .object [("type", .text "boolean"), ("boost", .null),
        ("must", .list [.object [("type", .text "wildcard"), ("field", .text "title"),
          ("value", .text " ")]]), ("should", .list []), ("not", .list [])] := by
    rw [← reread_infinity]
    rfl
  have hread : (decode sampleBlank.text).result = .ok arrived := by
    rw [decode, parse_eq, htree]
    rfl
  exact ⟨hbuild, hread, not_built_of_decode hbuild (.inr hfaults) hread⟩

/-! ## Drafts all of whose faults are lost -/

/-- A box with finite edges is read where it was written, with the edges that are read. -/
theorem decode_geoBox {field : String} {box : GeoBox} (h₁ : box.minLatitude.isFinite)
    (h₂ : box.maxLatitude.isFinite) (h₃ : box.minLongitude.isFinite)
    (h₄ : box.maxLongitude.isFinite) :
    (decode (leaf none (.geoBox field box)).text).result
      = .ok (leaf none (.geoBox field (rereadBox box))) := by
  have htree : (leaf none (.geoBox field box)).toJson.reread
      = .object [("type", .text "geo_bbox"), ("field", .text field),
        ("min_latitude", .number (.double box.minLatitude.reread)),
        ("max_latitude", .number (.double box.maxLatitude.reread)),
        ("min_longitude", .number (.double box.minLongitude.reread)),
        ("max_longitude", .number (.double box.maxLongitude.reread))] := by
    rw [← Json.reread_double h₁, ← Json.reread_double h₂, ← Json.reread_double h₃,
      ← Json.reread_double h₄]
    rfl
  rw [decode, parse_eq, htree, rereadBox]
  generalize box.minLatitude.reread = south
  generalize box.maxLatitude.reread = north
  generalize box.minLongitude.reread = west
  generalize box.maxLongitude.reread = east
  rfl

/-- A box whose least latitude is one step above the greatest one. -/
def sampleCrossed : GeoBox :=
  ⟨.ofBits 0x3FF886962230051D, .ofBits 0x3FF886962230051C, .zero false, .zero false⟩

/-- Both latitudes are read as the greater one. -/
theorem rereadBox_sampleCrossed :
    rereadBox sampleCrossed
      = ⟨.ofBits 0x3FF886962230051D, .ofBits 0x3FF886962230051D, .zero false, .zero false⟩ := by
  have hread : ∀ {x y : Double}, x.isFinite → x.negative = false → y.negative = false →
      (Json.read? (FloatLayout.jsonDouble.decimal .double x.code)).map
        (fun z => (z.negative, z.code)) = some (false, y.code) → x.reread = y := by
    intro x y hx hsign hy hvalue
    obtain ⟨z, hz, hcode⟩ := Option.map_eq_some_iff.1 hvalue
    rw [Prod.mk.injEq] at hcode
    rw [Json.reread_eq_of_read? hx hz, hsign, if_neg Bool.false_ne_true]
    exact BinaryFloat.ext (hcode.1.trans hy.symm) hcode.2
  rw [rereadBox, GeoBox.mk.injEq]
  exact ⟨hread (by decide) (by decide) (by decide) (by decide +kernel),
    hread (by decide) (by decide) (by decide) (by decide +kernel),
    hread (by decide) (by decide) (by decide) (by decide +kernel),
    hread (by decide) (by decide) (by decide) (by decide +kernel)⟩

/-- Infinity as a boost is written as null, and a box with crossed edges is read with equal ones;
neither is built as it is, and both are built once they were written and decoded. -/
theorem built_of_decode_lost :
    let unbounded : Draft := .all (some (.infinity false))
    let crossed : Draft := .leaf none (.geoBox "place" sampleCrossed)
    ((∃ fault, unbounded.build = .error fault) ∧
        ∃ d, (decode unbounded.text).result = .ok d ∧ ∃ c, d.build = .ok c) ∧
      (∃ fault, crossed.build = .error fault) ∧
        ∃ d, (decode crossed.text).result = .ok d ∧ ∃ c, d.build = .ok c := by
  intro unbounded crossed
  have htree : unbounded.toJson.reread = .object [("type", .text "all"), ("boost", .null)] := by
    rw [← reread_infinity]
    rfl
  have hunset : (decode unbounded.text).result = .ok (.all none) := by
    rw [decode, parse_eq, htree]
    rfl
  have hbox : (decode crossed.text).result
      = .ok (.leaf none (.geoBox "place" (rereadBox sampleCrossed))) :=
    decode_geoBox (by decide) (by decide) (by decide) (by decide)
  rw [rereadBox_sampleCrossed] at hbox
  exact ⟨⟨⟨_, rfl⟩, _, hunset, _, rfl⟩, ⟨_, rfl⟩, _, hbox, _, rfl⟩

end ColumnIndex.Condition.Draft
