import ColumnIndex.Text.Blank
import ColumnIndex.Text.Letter
import ColumnIndex.Text.Lowercase
import ColumnIndex.Text.Runs

/-!
# Analyzers

An analyzer cuts a text into the terms under which it is found. There are five of them, known by
name.

## Main definitions

* `Analyzer` — the analyzers.
* `Analyzer.ofName?` — the analyzer of a name.
* `Analyzer.analyze` — the terms of a text, in order.
-/
namespace ColumnIndex

/-- A way to cut a text into terms. -/
inductive Analyzer
  /-- Runs of letters and digits, in lower case. -/
  | standard
  /-- Runs of letters, in lower case. -/
  | simple
  /-- What stands between blanks, as it is. -/
  | whitespace
  /-- The text as one term. -/
  | keyword
  /-- As `standard`, without the most common English words. -/
  | english
  deriving DecidableEq

namespace Analyzer

/-- All analyzers. -/
def all : List Analyzer := [standard, simple, whitespace, keyword, english]

/-- The name of an analyzer. -/
def name : Analyzer → String
  | standard => "standard"
  | simple => "simple"
  | whitespace => "whitespace"
  | keyword => "keyword"
  | english => "english"

/-- The analyzer of a name. -/
def ofName? (name : String) : Option Analyzer := all.find? (·.name == name)

/-- The most common English words. -/
def stopWords : List String :=
  ["a", "an", "and", "are", "as", "at", "be", "but", "by", "for", "if", "in", "into", "is", "it",
    "no", "not", "of", "on", "or", "such", "that", "the", "their", "then", "there", "these",
    "they", "this", "to", "was", "will", "with"]

/-- The runs of the characters with a property, in lower case. -/
def lowercaseRuns (keep : Char → Bool) (cs : List Char) : List String :=
  (Text.runs keep cs).map fun run => String.ofList (Text.lowercaseChars run)

/-- The terms of a text, in order. -/
def analyze (analyzer : Analyzer) (text : String) : List String :=
  match analyzer with
  | standard => lowercaseRuns Text.isAlphanumeric text.toList
  | simple => lowercaseRuns Text.isAlphabetic text.toList
  | whitespace => (Text.runs (!Text.isBlank ·) text.toList).map String.ofList
  | keyword => if text.isEmpty then [] else [text]
  | english =>
    (lowercaseRuns Text.isAlphanumeric text.toList).filter fun term => !stopWords.contains term

@[simp] theorem ofName?_name (a : Analyzer) : ofName? a.name = some a := by
  cases a <;> decide

end Analyzer

end ColumnIndex
