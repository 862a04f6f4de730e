import ColumnIndex.Mapper.Draft
import ColumnIndex.Proofs.LiteralPayloads
import ColumnIndex.Proofs.Texts.Dates

/-!
# Dates as literals

Dates and timestamps become texts in their literals. A mapper of dates takes a date as it is, but a
text only in the form of its pattern. So it depends on the pattern whether the literal is found:
the pattern with the form of a date reads every date back, and the one that drafts have by default
reads none, for it has slashes where the texts have dashes.

Main statement: `Mapper.base_date_literal`.
-/
namespace ColumnIndex

open Outcome

/-! ## Patterns -/

namespace Pattern

/-- A pattern that is written in two pieces is cut into tokens as a whole. -/
theorem tokens_append (a b : List Char) :
    tokens (String.ofList a ++ String.ofList b) = tokensFrom 0 0 (a ++ b) := by
  rw [tokens, String.toList_append, String.toList_ofList, String.toList_ofList]

theorem parse_eq_of_tokens {text : String} {ts : List Token} (h : tokens text = ts) :
    parse text = ((items (4 * ts.length + 4)).run ts).1 := by
  rw [parse, h]

/-- The items of the default pattern start with the year and a slash. -/
theorem parse_defaultPattern :
    ∃ items,
      (parse Mapper.defaultPattern).toOption = some (yearItem :: .literal ['/'] :: items) := by
  refine ⟨[monthItem, .literal ['/'], dayItem, .literal [' '],
    .component (.hour .zero false), .literal [':'], .component (.minute .zero), .literal [':'],
    .component (.second .zero), .literal ['.'], .component (.subsecond (some 3)), .literal [' '],
    .component (.offsetHour .zero true), .component (.offsetMinute .zero)], ?_⟩
  -- the text is long, so its characters are not left to the evaluation
  have htokens : tokens Mapper.defaultPattern = tokensFrom 0 0 (_ ++ _) := tokens_append _ _
  refine (congrArg Except.toOption (parse_eq_of_tokens htokens)).trans ?_
  decide +kernel

/-- The pattern in the form of a date. -/
theorem parse_datePattern :
    (parse "[year]-[month]-[day]").toOption
      = some [yearItem, .literal ['-'], monthItem, .literal ['-'], dayItem] := by
  decide +kernel

end Pattern

/-! ## Texts of dates and timestamps -/

/-- The text of a timestamp starts with its date. -/
theorem Timestamp.exists_text_eq (t : Timestamp) :
    ∃ rest, t.text = String.ofList (t.date.chars ++ rest) := by
  unfold text internetChars longChars
  dsimp only
  split
  · simp only [List.append_assoc]
    exact ⟨_, rfl⟩
  · simp only [List.append_assoc]
    exact ⟨_, rfl⟩

/-- The default pattern reads no text that starts with a date. -/
theorem millisOfText?_default_eq_none (d : Date) (rest : List Char) :
    millisOfText? Mapper.defaultPattern (String.ofList (d.chars ++ rest)) = none := by
  have hne : d.chars ≠ [] := by
    rw [Date.chars_eq]
    simp
  obtain ⟨items, hitems⟩ := Pattern.parse_defaultPattern
  obtain ⟨rest', htrim⟩ :=
    Text.exists_trimChars_append hne (fun _ => Date.isVisible_of_mem_chars) rest
  rw [millisOfText?, hitems, String.toList_ofList, htrim]
  simp [Pattern.read?_slashed_eq_none]

/-- A year, a month and a day are a day without a time. -/
theorem Pattern.Reading.millis_of_parts (d : Date) :
    let r : Reading := { year := some d.year, month := some d.month, day := some d.day }
    r.instant? = none ∧ r.localInstant? = none ∧ r.day? = some d.dayNumber := by
  intro r
  have hday : r.day? = some d.dayNumber := by
    show (Date.ofParts? d.year d.month d.day).map Date.dayNumber = some d.dayNumber
    rw [Date.ofParts?, dif_pos ⟨d.year_range, d.month_range, d.day_range⟩, Option.map_some]
  have htime : r.timeOfDay? = none := rfl
  refine ⟨?_, ?_, hday⟩
  · show (r.day?.bind fun day => r.timeOfDay?.bind fun time => _) = none
    rw [hday, htime]
    rfl
  · show (r.day?.bind fun day => r.timeOfDay?.bind fun time => _) = none
    rw [hday, htime]
    rfl

/-- The pattern in the form of a date reads each date. -/
theorem millisOfText?_date (d : Date) :
    millisOfText? "[year]-[month]-[day]" d.text = some (millisOfDay d.dayNumber) := by
  have htrim := Text.trimChars_of_visible fun _ => Date.isVisible_of_mem_chars (d := d)
  obtain ⟨hinstant, hlocal, hday⟩ := Pattern.Reading.millis_of_parts d
  rw [millisOfText?, Pattern.parse_datePattern, Date.text, String.toList_ofList, htrim]
  simp only [Option.bind_eq_bind, Option.bind_some, Pattern.read?_date, hinstant, hlocal, hday]
  rfl

/-! ## Payloads -/

namespace Value

/-- A date or a timestamp has an instant, whatever the pattern. -/
theorem exists_toMillis?_of_temporal {v : Value} (hv : v.family = .temporal) (pattern : String) :
    ∃ millis, v.toMillis? pattern = some millis := by
  cases v with
  | date d => exact ⟨_, rfl⟩
  | timestamp t => exact ⟨_, rfl⟩
  | _ => cases hv

/-- The text of a date has the form of a date. -/
theorem toMillis?_literal_date (d : Date) :
    (date d).literal.toMillis? "[year]-[month]-[day]"
      = (date d).toMillis? "[year]-[month]-[day]" := millisOfText?_date d

/-- The text of a date or a timestamp does not have the default form. -/
theorem toMillis?_literal_default {v : Value} (hv : v.family = .temporal) :
    v.literal.toMillis? Mapper.defaultPattern = none := by
  cases v with
  | date d =>
    have h := millisOfText?_default_eq_none d []
    rwa [List.append_nil] at h
  | timestamp t =>
    obtain ⟨rest, hrest⟩ := t.exists_text_eq
    show millisOfText? Mapper.defaultPattern t.text = none
    rw [hrest, millisOfText?_default_eq_none]
  | _ => cases hv

end Value

namespace Mapper

variable {m : Mapper} {pattern : String}

/-- A mapper of dates gives a value the milliseconds that it is or denotes, or rejects it. -/
theorem base_date_eq (hm : m.kind = .date pattern) (column : String) {v : Value}
    (hv : v.isScalar) :
    (m.base column v).result = match v.toMillis? pattern with
      | some millis => .ok (some (.long (Int64.ofInt millis)))
      | none => .error (report (m.fault column (.value v))) := by
  have hspatial : m.tag.isSpatial = false := by
    rw [tag, hm]
    rfl
  rw [base, coerce_eq_of_scalar hspatial hv, hm]
  cases hmillis : v.toMillis? pattern with
  | none => simp [MapperKind.coerce, hmillis, Except.map, Except.mapError]
  | some millis => simp [MapperKind.coerce, hmillis, Except.map, Except.mapError]

/-- The payload of a value that denotes an instant. -/
theorem base_date_of_millis (hm : m.kind = .date pattern) (column : String) {v : Value}
    (hv : v.isScalar) {millis : Int} (hmillis : v.toMillis? pattern = some millis) :
    (m.base column v).result = .ok (some (.long (Int64.ofInt millis))) := by
  rw [base_date_eq hm column hv, hmillis]

/-- Under a mapper of dates, a whole number and its literal have the same payload. A date and its
literal do if the pattern has the form of a date. With the default pattern each date and each
timestamp has a payload, and its literal is rejected. -/
theorem base_date_literal (hm : m.kind = .date pattern) (column : String) :
    (∀ i, (m.base column (Value.int i).literal).result = (m.base column (.int i)).result) ∧
      (∀ i, (m.base column (Value.long i).literal).result = (m.base column (.long i)).result) ∧
      (pattern = "[year]-[month]-[day]" → ∀ d,
        (m.base column (Value.date d).literal).result = (m.base column (.date d)).result) ∧
      (pattern = defaultPattern → ∀ v : Value, v.family = .temporal →
        (∃ base, (m.base column v).result = .ok (some base)) ∧
          (m.base column v.literal).result
            = .error (report (m.fault column (.value v.literal)))) := by
  refine ⟨?_, fun i => rfl, ?_, ?_⟩
  · intro i
    rw [base_date_eq hm column rfl, base_date_eq hm column rfl]
    simp [Value.literal, Value.toMillis?]
  · rintro rfl d
    have hread := Value.toMillis?_literal_date d
    rw [base_date_of_millis hm column rfl hread, base_date_of_millis hm column rfl rfl]
  · rintro rfl v hv
    have hscalar : v.isScalar := by
      cases v with
      | date d => rfl
      | timestamp t => rfl
      | _ => cases hv
    obtain ⟨millis, hmillis⟩ := Value.exists_toMillis?_of_temporal hv defaultPattern
    constructor
    · exact ⟨_, base_date_of_millis hm column hscalar hmillis⟩
    · rw [base_date_eq hm column (by rw [Value.isScalar_literal, hscalar]),
        Value.toMillis?_literal_default hv]

/-- A pattern that can be read is the one of the mapper. -/
theorem Draft.Kind.build_date {pattern : Option String} {items : List Pattern.Item}
    (h : (Pattern.parse (pattern.getD defaultPattern)).toOption = some items) :
    Draft.Kind.build (.date pattern) = .ok (.date (pattern.getD defaultPattern)) := by
  rw [build]
  cases hparse : Pattern.parse (pattern.getD defaultPattern) with
  | ok parsed => rfl
  | error fault => simp [hparse, Except.toOption] at h

/-- A mapper of dates with the default pattern. -/
def sampleReleased : Mapper :=
  ⟨"released", "released", true, false, defaultBoost, .date defaultPattern⟩

/-- The second day of a year. -/
def sampleDate : Date := ⟨2024, 1, 2, by decide, by decide, by decide⟩

/-- Five minutes past one on that day. -/
def sampleTimestamp : Timestamp :=
  ⟨sampleDate, 1, 5, 0, 0, 0, by decide, by decide, by decide, by decide, by decide⟩

/-- A timestamp is accepted and its text is not. -/
theorem base_date_literal_timestamp :
    sampleReleased.kind = .date defaultPattern ∧
      (Value.timestamp sampleTimestamp).family = .temporal ∧
      (∃ base, (sampleReleased.base "released" (.timestamp sampleTimestamp)).result
        = .ok (some base)) ∧
      (sampleReleased.base "released" (Value.timestamp sampleTimestamp).literal).result
        = .error (report (sampleReleased.fault "released"
            (.value (Value.timestamp sampleTimestamp).literal))) := by
  obtain ⟨-, -, -, htemporal⟩ := base_date_literal (m := sampleReleased) rfl "released"
  exact ⟨rfl, rfl, htemporal rfl (.timestamp sampleTimestamp) rfl⟩

/-- A mapper that was built without a pattern gives a date its milliseconds, and rejects the text
that the literal of the date is. -/
theorem default_rejects_date :
    Draft.build { kind := .date none } "released" = .ok sampleReleased ∧
      (Value.date sampleDate).literal = .text "2024-01-02" ∧
      (sampleReleased.base "released" (.date sampleDate)).result
        = .ok (some (.long 1704153600000)) ∧
      (sampleReleased.base "released" (.text "2024-01-02")).result
        = .error (report (sampleReleased.fault "released" (.value (.text "2024-01-02")))) := by
  have hbuild : Draft.Kind.build (.date none) = .ok (.date defaultPattern) := by
    obtain ⟨items, hitems⟩ := Pattern.parse_defaultPattern
    exact Draft.Kind.build_date hitems
  have hliteral : (Value.date sampleDate).literal = .text "2024-01-02" := rfl
  have hrejected := Value.toMillis?_literal_default (v := .date sampleDate) rfl
  rw [hliteral] at hrejected
  refine ⟨?_, hliteral, rfl, ?_⟩
  · have hfield : Text.isBlankText "released" = false := by decide
    have hboost : isBoost defaultBoost = true := by decide
    simp [Draft.build, Draft.buildOptions, hfield, hboost, hbuild, sampleReleased]
    rfl
  · rw [base_date_eq (m := sampleReleased) rfl "released" rfl, hrejected]

end Mapper

end ColumnIndex
