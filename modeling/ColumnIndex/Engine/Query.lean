import ColumnIndex.Engine.Field

/-!
# Queries

What the search engine receives for a search: a tree of queries. The clauses of a boolean query
keep their order.

## Main definitions

* `Occur` — the ways in which a clause takes part.
* `Query` — the trees.
* `Query.boosted` — a query with a boost.
* `Query.text` — the text of a query.
-/
namespace ColumnIndex

/-- How a clause takes part in a boolean query. -/
inductive Occur
  | must
  | should
  | mustNot
  /-- As `must`, but without a part in the score. -/
  | filter
  deriving DecidableEq

/-- The mark of a clause in the text of a query. -/
def Occur.mark : Occur → String
  | must => "+"
  | should => ""
  | mustNot => "-"
  | filter => "#"

/-- Four edges on the globe. -/
structure GeoBox where
  minLatitude : Double
  maxLatitude : Double
  minLongitude : Double
  maxLongitude : Double

/-- A query. Distances are in meters. -/
inductive Query
  | matchAll
  | matchNone
  | term (field : String) (value : FieldValue)
  | range (field : String) (lower upper : Option FieldValue) (includeLower includeUpper : Bool)
  | wildcard (field pattern : String)
  | startsWith (field start : String)
  | regexp (field pattern : String)
  | fuzzy (field word : String) (maxEdits : UInt8) (prefixLength maxExpansions : UInt32)
      (transpositions : Bool)
  | phrase (field : String) (terms : List String) (slop : UInt32)
  | boolean (clauses : List (Occur × Query))
  | boost (query : Query) (factor : Single)
  | constantScore (query : Query)
  | geoBox (field : String) (box : GeoBox)
  | geoDistance (field : String) (latitude longitude : Double) (minimum : Option Double)
      (maximum : Double)

namespace Query

/-- The query with a boost; the default boost changes nothing. -/
def boosted (query : Query) (factor : Single) : Query :=
  if factor.toBits = defaultBoost.toBits then query else boost query factor

/-- The clauses of a boolean query. -/
def clauses? : Query → Option (List (Occur × Query))
  | boolean clauses => some clauses
  | _ => none

/-- The queries that take part in the given way, in order. -/
def clausesOf (occur : Occur) (clauses : List (Occur × Query)) : List Query :=
  (clauses.filter (·.1 == occur)).map (·.2)

/-- A bound of a range; a star stands for none. -/
def boundText : Option FieldValue → String
  | none => "*"
  | some value => value.text

/-- A point on the globe. -/
def pointText (latitude longitude : Double) : String :=
  latitude.plainText ++ "," ++ longitude.plainText

mutual

/-- The text of a query. -/
def text : Query → String
  | matchAll => "*:*"
  | matchNone => "MatchNone"
  | term field value => field ++ ":" ++ value.text
  | range field lower upper includeLower includeUpper =>
    field ++ ":" ++ (if includeLower then "[" else "\x7b") ++ boundText lower ++ " TO "
      ++ boundText upper ++ (if includeUpper then "]" else "\x7d")
  | wildcard field pattern => field ++ ":" ++ pattern
  | startsWith field start => field ++ ":" ++ start ++ "*"
  | regexp field pattern => field ++ ":/" ++ pattern ++ "/"
  | fuzzy field word maxEdits .. => field ++ ":" ++ word ++ "~" ++ Text.intText maxEdits.toNat
  | phrase field terms slop =>
    field ++ ":\"" ++ " ".intercalate terms ++ "\""
      ++ (if slop = 0 then "" else "~" ++ Text.intText slop.toNat)
  | boolean clauses => "(" ++ " ".intercalate (clauseTexts clauses) ++ ")"
  | boost query factor => "(" ++ text query ++ ")^" ++ factor.plainText
  | constantScore query => "ConstantScore(" ++ text query ++ ")"
  | geoBox field box =>
    field ++ ":bbox(" ++ pointText box.minLatitude box.minLongitude ++ " "
      ++ pointText box.maxLatitude box.maxLongitude ++ ")"
  | geoDistance field latitude longitude minimum maximum =>
    field ++ ":distance(" ++ pointText latitude longitude ++ " "
      ++ (minimum.getD (.zero false)).plainText ++ ".." ++ maximum.plainText ++ "m)"

/-- The texts of the clauses of a boolean query, with their marks. -/
def clauseTexts : List (Occur × Query) → List String
  | [] => []
  | (occur, query) :: clauses => (occur.mark ++ text query) :: clauseTexts clauses

end

end Query

end ColumnIndex
