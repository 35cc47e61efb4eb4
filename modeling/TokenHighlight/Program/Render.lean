import TokenHighlight.CommandLine.Arguments
import TokenHighlight.Html.Document
import TokenHighlight.Json.Printer
import TokenHighlight.Text.Blank
import TokenHighlight.Vocabulary.Sync
import TokenHighlight.Vocabulary.Tokens
import TokenHighlight.Yaml.Printer

/-!
# What commands print

The classification table, reports about vocabularies and highlighted texts in the formats that a
user can choose.
-/

namespace TokenHighlight

/-- A value in a format of reports. -/
def ReportFormat.render : ReportFormat → Data → String
  | json, x => Json.pretty x
  | yaml, x => Yaml.block x

/-! ## Tables -/

namespace Table

/-- The fields about a tag that a kind may have. -/
def tagFields : Option Tag → List (String × Data)
  | none => []
  | some tag =>
      [("key", .text tag.key), ("fallback", .text tag.fallback), ("scope", .text tag.scope)]

/-- A kind and its tag as data. -/
def rowData (row : Kind × Option Tag) : Data :=
  .record
    ([("name", .text row.1.name), ("code", .int row.1.code)] ++
      (row.1.literal.map fun s => ("literal", Data.text s)).toList ++
      [("tag", .ofText? (row.2.map Tag.name))] ++ tagFields row.2)

/-- The table as data. -/
def toData (t : Table) : Data := .list (t.toList.map rowData)

/-- The table in a format, without blanks at the end. -/
def render (t : Table) (format : TableFormat) : String :=
  let text :=
    match format with
    | .json => Json.pretty t.toData
    | .yaml => Yaml.block t.toData
    | .tokens => Vocabulary.builtin.toTokens
  String.ofList (Text.trimRight text.toList)

end Table

/-! ## Reports -/

namespace SyncReport

/-- The line about an entry that is not known. -/
def unknownLine (e : String × Int) : String :=
  "unknown: " ++ e.1 ++ " (" ++ String.ofList (Decimal.ofInt e.2) ++ ") is not classified"

/-- The line about an entry with the wrong code. -/
def mismatchLine (m : Mismatch) : String :=
  "mismatched: " ++ m.name ++ " has code " ++ String.ofList (Decimal.ofInt m.found) ++
    ", expected " ++ String.ofList (Decimal.ofInt m.expected) ++ " (" ++ m.kind.name ++ ")"

/-- The line about a kind without a name. -/
def missingLine (k : Kind) : String :=
  "missing: " ++ k.name ++ " (" ++ String.ofList (Decimal.ofInt k.code) ++ ")"

/-- The lines of a report for the user. -/
def summary (r : SyncReport) : List String :=
  if r.isInSync then ["token kinds are in sync"]
  else
    r.unknown.map unknownLine ++ r.mismatched.map mismatchLine ++ r.missing.map missingLine

/-- A report in a format, or for the user. -/
def render (r : SyncReport) : Option ReportFormat → String
  | none => String.join (r.summary.map fun line => line ++ "\n")
  | some format => format.render r.toData ++ "\n"

end SyncReport

/-! ## Highlighted texts -/

/-- A row as data. -/
def Row.toData (r : Row) : Data :=
  .record
    [("span", .list [.int r.span.start, .int r.span.stop]),
      ("text", .ofText? (r.text?.map String.ofList)),
      ("tags", .list (r.tag?.toList.map fun tag => .text tag.name))]

/-- The rows of a token stream in JSON. -/
def Table.highlightJson (t : Table) (text : String) (tokens : List Token) : String :=
  Json.pretty (.list ((t.rows text.toList tokens).map Row.toData))

/-- A highlighted text in a format. -/
def Table.highlight (t : Table) (format : HighlightFormat) (text : String) (tokens : List Token) :
    Except SpanError String :=
  match format with
  | .html => t.highlightHtml text tokens
  | .json => .ok (t.highlightJson text tokens)

end TokenHighlight
