/-!
# Tags and classifications

A `Tag` is one of five ways to highlight a token.  A `Classification` is what a configuration
assigns to a kind: a tag or none.  `Classification.tag?_ofTag?` and `Classification.ofTag?_tag?` say
that classifications and optional tags are the same thing.
-/

namespace TokenHighlight

/-- A way to highlight a token. -/
inductive Tag where
  /-- An identifier. -/
  | identifier
  /-- A keyword, an operator, punctuation or a literal that is no string. -/
  | keyword
  /-- A string literal. -/
  | stringLiteral
  /-- A line comment. -/
  | lineComment
  /-- A block comment. -/
  | blockComment
  deriving DecidableEq

namespace Tag

/-- All tags, in order. -/
def all : List Tag := [identifier, keyword, stringLiteral, lineComment, blockComment]

/-- The position of a tag. -/
def index (t : Tag) : Nat := t.ctorIdx

/-- The name of a tag in configurations and output. -/
def name : Tag → String
  | identifier => "identifier"
  | keyword => "keyword"
  | stringLiteral => "string-literal"
  | lineComment => "line-comment"
  | blockComment => "block-comment"

/-- The key under which an editor theme styles a tag. -/
def key : Tag → String
  | identifier => "STREAMQL_ID"
  | keyword => "STREAMQL_KEYWORD"
  | stringLiteral => "STREAMQL_STRING"
  | lineComment => "STREAMQL_LINE_COMMENT"
  | blockComment => "STREAMQL_BLOCK_COMMENT"

/-- The general key for themes that do not style `key`. -/
def fallback : Tag → String
  | identifier => "IDENTIFIER"
  | keyword => "KEYWORD"
  | stringLiteral => "STRING"
  | lineComment => "LINE_COMMENT"
  | blockComment => "BLOCK_COMMENT"

/-- The scope of a tag in TextMate grammars. -/
def scope : Tag → String
  | identifier => "variable.other.streamql"
  | keyword => "keyword.streamql"
  | stringLiteral => "string.quoted.double.streamql"
  | lineComment => "comment.line.streamql"
  | blockComment => "comment.block.streamql"

/-- The class of a tag in style sheets. -/
def cssClass : Tag → String
  | identifier => "sql-id"
  | keyword => "sql-key"
  | stringLiteral => "sql-str"
  | lineComment => "sql-line-comment"
  | blockComment => "sql-block-comment"

/-- The tag with a given name. -/
def ofName? (s : String) : Option Tag := all.find? fun t => t.name == s

/-- The tag with a given style sheet class. -/
def ofCssClass? (s : String) : Option Tag := all.find? fun t => t.cssClass == s

theorem ofName?_name (t : Tag) : ofName? t.name = some t := by
  cases t <;> rfl

theorem ofCssClass?_cssClass (t : Tag) : ofCssClass? t.cssClass = some t := by
  cases t <;> rfl

end Tag

/-- What a configuration assigns to a kind. -/
inductive Classification where
  /-- No highlighting. -/
  | none
  /-- Highlighting as an identifier. -/
  | identifier
  /-- Highlighting as a keyword. -/
  | keyword
  /-- Highlighting as a string literal. -/
  | stringLiteral
  /-- Highlighting as a line comment. -/
  | lineComment
  /-- Highlighting as a block comment. -/
  | blockComment
  deriving DecidableEq

namespace Classification

/-- All classifications, in order. -/
def all : List Classification :=
  [none, identifier, keyword, stringLiteral, lineComment, blockComment]

/-- The name of a classification in configurations. -/
def name : Classification → String
  | none => "none"
  | identifier => "identifier"
  | keyword => "keyword"
  | stringLiteral => "string-literal"
  | lineComment => "line-comment"
  | blockComment => "block-comment"

/-- The classification with a given name. -/
def ofName? (s : String) : Option Classification := all.find? fun c => c.name == s

/-- The tag that a classification stands for. -/
def tag? : Classification → Option Tag
  | none => Option.none
  | identifier => some .identifier
  | keyword => some .keyword
  | stringLiteral => some .stringLiteral
  | lineComment => some .lineComment
  | blockComment => some .blockComment

/-- The classification that stands for an optional tag. -/
def ofTag? : Option Tag → Classification
  | Option.none => none
  | some .identifier => identifier
  | some .keyword => keyword
  | some .stringLiteral => stringLiteral
  | some .lineComment => lineComment
  | some .blockComment => blockComment

theorem ofName?_name (c : Classification) : ofName? c.name = some c := by
  cases c <;> rfl

@[simp] theorem tag?_ofTag? (t : Option Tag) : (ofTag? t).tag? = t := by
  rcases t with _ | t
  · rfl
  · cases t <;> rfl

@[simp] theorem ofTag?_tag? (c : Classification) : ofTag? c.tag? = c := by
  cases c <;> rfl

end Classification

end TokenHighlight
