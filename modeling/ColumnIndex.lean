import ColumnIndex.Analyzer
import ColumnIndex.Calendar.Date
import ColumnIndex.Calendar.Pattern
import ColumnIndex.Calendar.Pattern.Modifier
import ColumnIndex.Calendar.Pattern.Parser
import ColumnIndex.Calendar.Pattern.Token
import ColumnIndex.Calendar.Reading
import ColumnIndex.Calendar.Timestamp
import ColumnIndex.ColumnType
import ColumnIndex.Columns
import ColumnIndex.Compile.Fault
import ColumnIndex.Condition
import ColumnIndex.Condition.Compile
import ColumnIndex.Condition.Draft
import ColumnIndex.Condition.Draft.Json
import ColumnIndex.Engine.Field
import ColumnIndex.Engine.Query
import ColumnIndex.Engine.Sort
import ColumnIndex.Entries
import ColumnIndex.Error
import ColumnIndex.Geo.Distance
import ColumnIndex.Geo.Geohash
import ColumnIndex.IndexOptions
import ColumnIndex.IndexOptions.Document
import ColumnIndex.IndexOptions.Entries
import ColumnIndex.Json.Scan
import ColumnIndex.Json.Token
import ColumnIndex.Json.Tree
import ColumnIndex.Mapper
import ColumnIndex.Mapper.Coercion
import ColumnIndex.Mapper.Draft
import ColumnIndex.Mapper.Draft.Json
import ColumnIndex.Mapper.Kind
import ColumnIndex.Mapper.Sortable
import ColumnIndex.Metrics.Counters
import ColumnIndex.Metrics.Event
import ColumnIndex.Metrics.Recorder
import ColumnIndex.Metrics.Scope
import ColumnIndex.Network.Address
import ColumnIndex.Number.Binary
import ColumnIndex.Number.Binary.Arithmetic
import ColumnIndex.Number.Binary.Layout
import ColumnIndex.Number.Binary.Reader
import ColumnIndex.Number.Binary.Shortest
import ColumnIndex.Number.Decimal
import ColumnIndex.Number.Decimal.Reader
import ColumnIndex.Number.Rounding
import ColumnIndex.Proofs.AnalyzedWords
import ColumnIndex.Proofs.BytePayloads
import ColumnIndex.Proofs.Calendar.Days
import ColumnIndex.Proofs.ColumnTypeNames
import ColumnIndex.Proofs.CompileAcceptance
import ColumnIndex.Proofs.ConditionDrafts
import ColumnIndex.Proofs.ConditionGrammar
import ColumnIndex.Proofs.ConditionMeaning
import ColumnIndex.Proofs.CountedOperations
import ColumnIndex.Proofs.CountedRejections
import ColumnIndex.Proofs.DateInstants
import ColumnIndex.Proofs.DateLiterals
import ColumnIndex.Proofs.DecimalLiterals
import ColumnIndex.Proofs.Digits
import ColumnIndex.Proofs.DraftOptions
import ColumnIndex.Proofs.EventTotals
import ColumnIndex.Proofs.FieldNames
import ColumnIndex.Proofs.FieldPositions
import ColumnIndex.Proofs.FieldTypes
import ColumnIndex.Proofs.FilledRows
import ColumnIndex.Proofs.FloatLiterals
import ColumnIndex.Proofs.Geohash
import ColumnIndex.Proofs.GeohashCells
import ColumnIndex.Proofs.GeohashWalk
import ColumnIndex.Proofs.GivenOptions
import ColumnIndex.Proofs.Json.Distinct
import ColumnIndex.Proofs.Json.FractionTokens
import ColumnIndex.Proofs.Json.Reproduced
import ColumnIndex.Proofs.Json.RereadNumbers
import ColumnIndex.Proofs.Json.ScaledNumbers
import ColumnIndex.Proofs.Json.Tokens
import ColumnIndex.Proofs.Json.TreeScan
import ColumnIndex.Proofs.Json.TreeTokens
import ColumnIndex.Proofs.KeptDecimals
import ColumnIndex.Proofs.KnownAttributes
import ColumnIndex.Proofs.LiteralForms
import ColumnIndex.Proofs.LiteralPayloads
import ColumnIndex.Proofs.LostFaults
import ColumnIndex.Proofs.MappedColumns
import ColumnIndex.Proofs.MapperDrafts
import ColumnIndex.Proofs.MatchedRows
import ColumnIndex.Proofs.NarrowedTexts
import ColumnIndex.Proofs.NestedCells
import ColumnIndex.Proofs.Number.Arithmetic
import ColumnIndex.Proofs.Number.DecimalDigits
import ColumnIndex.Proofs.Number.DecimalErrors
import ColumnIndex.Proofs.Number.DecimalRounding
import ColumnIndex.Proofs.Number.DecimalTexts
import ColumnIndex.Proofs.Number.ExactArithmetic
import ColumnIndex.Proofs.Number.FiniteWidening
import ColumnIndex.Proofs.Number.FloatDecimals
import ColumnIndex.Proofs.Number.FloatTexts
import ColumnIndex.Proofs.Number.KeptWidening
import ColumnIndex.Proofs.Number.Magnitude
import ColumnIndex.Proofs.Number.NearMidpoints
import ColumnIndex.Proofs.Number.Nearest
import ColumnIndex.Proofs.Number.NearestFinite
import ColumnIndex.Proofs.Number.Order
import ColumnIndex.Proofs.Number.PlainTexts
import ColumnIndex.Proofs.Number.Reading
import ColumnIndex.Proofs.Number.RoundedTexts
import ColumnIndex.Proofs.Number.Rounding
import ColumnIndex.Proofs.Number.Shortest
import ColumnIndex.Proofs.Number.ShortestDigits
import ColumnIndex.Proofs.Number.ShortestPoints
import ColumnIndex.Proofs.Number.SortableTexts
import ColumnIndex.Proofs.Number.WholeRounding
import ColumnIndex.Proofs.Number.Widening
import ColumnIndex.Proofs.NumberPayloads
import ColumnIndex.Proofs.NumericLiterals
import ColumnIndex.Proofs.Outcome
import ColumnIndex.Proofs.Payload
import ColumnIndex.Proofs.PayloadTypes
import ColumnIndex.Proofs.PrefixSearches
import ColumnIndex.Proofs.QueryMeaning
import ColumnIndex.Proofs.RangeSearches
import ColumnIndex.Proofs.ReadConditions
import ColumnIndex.Proofs.RereadConditions
import ColumnIndex.Proofs.RoundedBounds
import ColumnIndex.Proofs.RowFields
import ColumnIndex.Proofs.SchemaDrafts
import ColumnIndex.Proofs.SearchMeaning
import ColumnIndex.Proofs.SinkScopes
import ColumnIndex.Proofs.StrictRequests
import ColumnIndex.Proofs.Texts.Address
import ColumnIndex.Proofs.Texts.Dates
import ColumnIndex.Proofs.Texts.DigitOrder
import ColumnIndex.Proofs.Texts.HexDigits
import ColumnIndex.Proofs.Texts.LowercasePrefixes
import ColumnIndex.Proofs.Texts.SpacedParts
import ColumnIndex.Proofs.Texts.Uuid
import ColumnIndex.Proofs.Texts.Visible
import ColumnIndex.Proofs.Texts.Words
import ColumnIndex.Proofs.WholeParts
import ColumnIndex.Proofs.WrittenConditions
import ColumnIndex.Proofs.WrittenDistances
import ColumnIndex.Proofs.WrittenLiterals
import ColumnIndex.Proofs.WrittenMappers
import ColumnIndex.Proofs.WrittenMembers
import ColumnIndex.Proofs.WrittenRecords
import ColumnIndex.Proofs.WrittenSchemas
import ColumnIndex.Proofs.WrittenSearches
import ColumnIndex.Schema
import ColumnIndex.Schema.Draft
import ColumnIndex.Schema.Draft.Json
import ColumnIndex.Search
import ColumnIndex.Search.Json
import ColumnIndex.Text.Blank
import ColumnIndex.Text.Digits
import ColumnIndex.Text.Hex
import ColumnIndex.Text.Letter
import ColumnIndex.Text.Lowercase
import ColumnIndex.Text.Printable
import ColumnIndex.Text.Quoted
import ColumnIndex.Text.Ranges
import ColumnIndex.Text.Runs
import ColumnIndex.Toml.Document
import ColumnIndex.Toml.Plain
import ColumnIndex.Toml.Token
import ColumnIndex.Toml.Tree
import ColumnIndex.Uuid
import ColumnIndex.Value
import ColumnIndex.Value.Literal
import ColumnIndex.Version
import ColumnIndex.Wire.Attribute
import ColumnIndex.Wire.Fault
import ColumnIndex.Wire.Record
