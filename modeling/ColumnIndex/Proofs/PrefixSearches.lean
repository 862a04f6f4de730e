import ColumnIndex.Proofs.ConditionMeaning
import ColumnIndex.Proofs.Texts.LowercasePrefixes

/-!
# Searches for the start of a text

A field of strings that ignores case keeps its texts in lower case, and the start that is searched
for is taken to lower case in the same way. The two agree unless the start ends within a word at a
capital sigma: the sigma takes its final form in the search and the other one in the index, and the
search does not find the text.

Main statement: `Condition.compile_startsWith_prefix_iff`.
-/
namespace ColumnIndex

open Outcome

variable {s : Schema} {m : Mapper} {field : String} {caseSensitive : Bool}

namespace Condition

/-- The payload of a text is the text as it is written in searches. -/
theorem base_foldedText (hm : m.kind = .string caseSensitive) (column t : String) :
    (m.base column (.text t)).result = .ok (some (.str (foldedText m t))) := by
  have hspatial : m.tag.isSpatial = false := by
    rw [Mapper.tag, hm]
    rfl
  have hpayload : m.kind.payload? (.text t) = some (.str (foldedText m t)) := by
    rw [foldedText, hm]
    cases caseSensitive with
    | false => rfl
    | true => rfl
  have hcoerce : m.coerce column (.text t) = .ok (some (.str (foldedText m t))) :=
    (Mapper.coerce_eq_some hspatial).2 ⟨rfl, MapperKind.coerce_eq_ok.2 hpayload⟩
  rw [Mapper.base, hcoerce]
  rfl

/-- Folding keeps the start of a text unless it takes a sigma for the end of the word. -/
theorem foldedText_prefix_iff (hm : m.kind = .string caseSensitive) (start rest : String) :
    (foldedText m start).toList <+: (foldedText m (start ++ rest)).toList ↔
      caseSensitive ∨ ¬Text.CutsWordAtSigma start.toList rest.toList := by
  rw [foldedText, foldedText, hm]
  cases caseSensitive with
  | false =>
    simp only [Text.lowercase, String.toList_ofList, String.toList_append,
      Text.lowercaseChars_prefix_iff, Bool.false_eq_true, false_or]
  | true => simp [String.toList_append]

theorem query_startsWith (hfield : s.mapper? field = some m) (hm : m.kind = .string caseSensitive)
    (start : String) :
    Leaf.query s (.pattern .startsWith field start)
      = .ok (.startsWith field (foldedText m start)) := by
  have hstring : m.tag.isString := by
    rw [Mapper.tag, hm]
    rfl
  have hmapper : stringMapper s field PatternForm.startsWith.tag = .ok m :=
    stringMapper_eq_ok.2 ⟨hfield, hstring⟩
  rw [Leaf.query, hmapper]
  rfl

/-- A search for the start of a text compiles, and the text has a payload. The one begins with the
other exactly if the field respects case or the start does not end within a word at a sigma. -/
theorem compile_startsWith_prefix_iff (hfield : s.mapper? field = some m)
    (hm : m.kind = .string caseSensitive) (boost : Single) (column start rest : String) :
    ∃ sought base,
      ((leaf boost (.pattern .startsWith field start)).compile s).result
        = .ok ((Query.startsWith field sought).boosted boost) ∧
      (m.base column (.text (start ++ rest))).result = .ok (some (.str base)) ∧
      (sought.toList <+: base.toList ↔
        caseSensitive ∨ ¬Text.CutsWordAtSigma start.toList rest.toList) := by
  refine ⟨_, _, ?_, base_foldedText hm column _, foldedText_prefix_iff hm start rest⟩
  rw [compile, query, query_startsWith hfield hm]
  rfl

/-- Names that ignore case. -/
def sampleName : Mapper := ⟨"name", "name", true, false, defaultBoost, .string false⟩

/-- A schema with that field alone. -/
def sampleNames : Schema := .ofMappers .standard [sampleName]

/-- A number after a sigma does not go on with the word, so the sigma is final in both texts. -/
theorem compile_startsWith_prefix_iff_number :
    sampleNames.mapper? "name" = some sampleName ∧ sampleName.kind = .string false ∧
      ∃ sought base,
        ((leaf defaultBoost (.pattern .startsWith "name" "ΑΣ")).compile sampleNames).result
          = .ok ((Query.startsWith "name" sought).boosted defaultBoost) ∧
        (sampleName.base "name" (.text ("ΑΣ" ++ ".5"))).result = .ok (some (.str base)) ∧
        sought.toList <+: base.toList := by
  have hfield : sampleNames.mapper? "name" = some sampleName := rfl
  refine ⟨hfield, rfl, ?_⟩
  obtain ⟨sought, base, hquery, hbase, hiff⟩ :=
    compile_startsWith_prefix_iff hfield rfl defaultBoost "name" "ΑΣ" ".5"
  refine ⟨sought, base, hquery, hbase, hiff.2 (.inr ?_)⟩
  rintro ⟨-, -, -, -, -, hcased⟩
  exact absurd hcased (by decide +kernel)

/-- A word is not found by its first two letters if the second one is a sigma. -/
theorem compile_startsWith_misses :
    sampleNames.mapper? "name" = some sampleName ∧ sampleName.kind = .string false ∧
      Text.isBlankText "ΑΣ" = false ∧ "ΑΣ".toList <+: "ΑΣΑ".toList ∧
      ((leaf defaultBoost (.pattern .startsWith "name" "ΑΣ")).compile sampleNames).result
        = .ok (.startsWith "name" "ας") ∧
      (sampleName.base "name" (.text "ΑΣΑ")).result = .ok (some (.str "ασα")) ∧
      ¬"ας".toList <+: "ασα".toList := by
  have hfield : sampleNames.mapper? "name" = some sampleName := rfl
  have hstart : foldedText sampleName "ΑΣ" = "ας" := by decide +kernel
  have hword : foldedText sampleName "ΑΣΑ" = "ασα" := by decide +kernel
  refine ⟨hfield, rfl, by decide, by decide, ?_, ?_, by decide⟩
  · rw [compile, query, query_startsWith hfield rfl, hstart]
    rfl
  · rw [base_foldedText rfl, hword]

end Condition

end ColumnIndex
