/-!
# Token kinds

`Kind` lists the token kinds of the query language in the order of the lexer, `name` and `literal`
are their symbolic names and fixed spellings, and `code` numbers them: the end of the token stream
has code `-1`, every other kind its position.  `ofName?`, `ofLiteral?` and `ofCode?` look kinds up;
the theorems `ofName?_eq_some_iff`, `ofLiteral?_eq_some_iff` and `ofCode?_eq_some_iff` say that each
look-up inverts the function it is named for.
-/

namespace TokenHighlight

/-- The kinds of tokens, in the order of the lexer. -/
inductive Kind where
  /-- The end of the token stream. -/
  | eof
  /-- A colon: `:`. -/
  | colon
  /-- A semicolon: `;`. -/
  | semicolon
  /-- A dot for attribute access: `.`. -/
  | dot
  /-- An opening parenthesis: `(`. -/
  | openParen
  /-- A closing parenthesis: `)`. -/
  | closeParen
  /-- An opening square bracket: `[`. -/
  | openBracket
  /-- A closing square bracket: `]`. -/
  | closeBracket
  /-- A comma separator: `,`. -/
  | comma
  /-- An assignment in annotations: `=`. -/
  | assign
  /-- The multiplication operator or the all-attributes wildcard: `*`. -/
  | star
  /-- The addition operator: `+`. -/
  | plus
  /-- The optional-occurrence marker in patterns: `?`. -/
  | question
  /-- The subtraction operator: `-`. -/
  | minus
  /-- The division operator: `/`. -/
  | slash
  /-- The remainder operator: `%`. -/
  | percent
  /-- The less-than operator: `<`. -/
  | less
  /-- The less-than or equal operator: `<=`. -/
  | lessEq
  /-- The greater-than operator: `>`. -/
  | greater
  /-- The greater-than or equal operator: `>=`. -/
  | greaterEq
  /-- The equality operator: `==`. -/
  | equal
  /-- The inequality operator: `!=`. -/
  | notEqual
  /-- The annotation marker: `@`. -/
  | atSign
  /-- The pattern sequencing arrow: `->`. -/
  | arrow
  /-- The window or handler marker: `#`. -/
  | hash
  /-- The `stream` keyword. -/
  | kwStream
  /-- The `define` keyword. -/
  | kwDefine
  /-- The `function` keyword. -/
  | kwFunction
  /-- The `trigger` keyword. -/
  | kwTrigger
  /-- The `table` keyword. -/
  | kwTable
  /-- The `plan` keyword. -/
  | kwPlan
  /-- The `from` keyword. -/
  | kwFrom
  /-- The `partition` keyword. -/
  | kwPartition
  /-- The `window` keyword. -/
  | kwWindow
  /-- The `select` keyword. -/
  | kwSelect
  /-- The `group` keyword. -/
  | kwGroup
  /-- The `by` keyword. -/
  | kwBy
  /-- The `having` keyword. -/
  | kwHaving
  /-- The `insert` keyword. -/
  | kwInsert
  /-- The `delete` keyword. -/
  | kwDelete
  /-- The `update` keyword. -/
  | kwUpdate
  /-- The `return` keyword. -/
  | kwReturn
  /-- The `events` keyword. -/
  | kwEvents
  /-- The `into` keyword. -/
  | kwInto
  /-- The `output` keyword. -/
  | kwOutput
  /-- The `expired` keyword. -/
  | kwExpired
  /-- The `current` keyword. -/
  | kwCurrent
  /-- The `snapshot` keyword. -/
  | kwSnapshot
  /-- The `for` keyword. -/
  | kwFor
  /-- The `raw` keyword. -/
  | kwRaw
  /-- The `of` keyword. -/
  | kwOf
  /-- The `as` keyword. -/
  | kwAs
  /-- The `at` keyword. -/
  | kwAt
  /-- The `or` operator. -/
  | kwOr
  /-- The `and` operator. -/
  | kwAnd
  /-- The `in` operator. -/
  | kwIn
  /-- The `on` keyword. -/
  | kwOn
  /-- The `is` operator. -/
  | kwIs
  /-- The `not` operator. -/
  | kwNot
  /-- The `within` keyword. -/
  | kwWithin
  /-- The `with` keyword. -/
  | kwWith
  /-- The `begin` keyword. -/
  | kwBegin
  /-- The `end` keyword. -/
  | kwEnd
  /-- The `null` keyword. -/
  | kwNull
  /-- The `every` keyword. -/
  | kwEvery
  /-- The `last` keyword. -/
  | kwLast
  /-- The `all` keyword. -/
  | kwAll
  /-- The `first` keyword. -/
  | kwFirst
  /-- The `join` keyword. -/
  | kwJoin
  /-- The `inner` keyword. -/
  | kwInner
  /-- The `outer` keyword. -/
  | kwOuter
  /-- The `right` keyword. -/
  | kwRight
  /-- The `left` keyword. -/
  | kwLeft
  /-- The `full` keyword. -/
  | kwFull
  /-- The `unidirectional` keyword. -/
  | kwUnidirectional
  /-- The `years` time unit. -/
  | kwYears
  /-- The `months` time unit. -/
  | kwMonths
  /-- The `weeks` time unit. -/
  | kwWeeks
  /-- The `days` time unit. -/
  | kwDays
  /-- The `hours` time unit. -/
  | kwHours
  /-- The `minutes` time unit. -/
  | kwMinutes
  /-- The `seconds` time unit. -/
  | kwSeconds
  /-- The `milliseconds` time unit. -/
  | kwMilliseconds
  /-- The `false` literal. -/
  | litFalse
  /-- The `true` literal. -/
  | litTrue
  /-- A quoted string. -/
  | quotedString
  /-- The `int` type name. -/
  | tyInt
  /-- The `long` type name. -/
  | tyLong
  /-- The `float` type name. -/
  | tyFloat
  /-- The `double` type name. -/
  | tyDouble
  /-- The `bool` type name. -/
  | tyBool
  /-- The `object` type name. -/
  | tyObject
  /-- A back-quoted identifier. -/
  | quotedIdent
  /-- An identifier. -/
  | ident
  /-- A string in value position of an annotation or option. -/
  | stringLiteral
  /-- An integer literal: `12`. -/
  | intLiteral
  /-- A long literal: `12L`. -/
  | longLiteral
  /-- A float literal: `1.5f`. -/
  | floatLiteral
  /-- A double literal: `1.5`. -/
  | doubleLiteral
  /-- The body of an embedded script function. -/
  | script
  /-- A line comment: `-- ...` or `// ...`. -/
  | lineComment
  /-- A block comment: `/* ... */`. -/
  | blockComment
  /-- One or more whitespace characters. -/
  | spaces
  /-- A character the lexer could not match. -/
  | unexpectedChar
  deriving DecidableEq

namespace Kind

/-- The symbolic name of a kind in the grammar. -/
def name : Kind → String
  | eof => "EOF"
  | colon => "COL"
  | semicolon => "SCOL"
  | dot => "DOT"
  | openParen => "OPEN_PAR"
  | closeParen => "CLOSE_PAR"
  | openBracket => "OPEN_SQARE_BRACKETS"
  | closeBracket => "CLOASE_SQARE_BRACKETS"
  | comma => "COMMA"
  | assign => "ASSIGN"
  | star => "STAR"
  | plus => "PLUS"
  | question => "QUESTION"
  | minus => "MINUS"
  | slash => "DIV"
  | percent => "MOD"
  | less => "LT"
  | lessEq => "LT_EQ"
  | greater => "GT"
  | greaterEq => "GT_EQ"
  | equal => "EQ"
  | notEqual => "NOT_EQ"
  | atSign => "AT_SYMBOL"
  | arrow => "FOLLOWED_BY"
  | hash => "HASH"
  | kwStream => "STREAM"
  | kwDefine => "DEFINE"
  | kwFunction => "FUNCTION"
  | kwTrigger => "TRIGGER"
  | kwTable => "TABLE"
  | kwPlan => "PLAN"
  | kwFrom => "FROM"
  | kwPartition => "PARTITION"
  | kwWindow => "WINDOW"
  | kwSelect => "SELECT"
  | kwGroup => "GROUP"
  | kwBy => "BY"
  | kwHaving => "HAVING"
  | kwInsert => "INSERT"
  | kwDelete => "DELETE"
  | kwUpdate => "UPDATE"
  | kwReturn => "RETURN"
  | kwEvents => "EVENTS"
  | kwInto => "INTO"
  | kwOutput => "OUTPUT"
  | kwExpired => "EXPIRED"
  | kwCurrent => "CURRENT"
  | kwSnapshot => "SNAPSHOT"
  | kwFor => "FOR"
  | kwRaw => "RAW"
  | kwOf => "OF"
  | kwAs => "AS"
  | kwAt => "AT"
  | kwOr => "OR"
  | kwAnd => "AND"
  | kwIn => "IN"
  | kwOn => "ON"
  | kwIs => "IS"
  | kwNot => "NOT"
  | kwWithin => "WITHIN"
  | kwWith => "WITH"
  | kwBegin => "BEGIN"
  | kwEnd => "END"
  | kwNull => "NULL"
  | kwEvery => "EVERY"
  | kwLast => "LAST"
  | kwAll => "ALL"
  | kwFirst => "FIRST"
  | kwJoin => "JOIN"
  | kwInner => "INNER"
  | kwOuter => "OUTER"
  | kwRight => "RIGHT"
  | kwLeft => "LEFT"
  | kwFull => "FULL"
  | kwUnidirectional => "UNIDIRECTIONAL"
  | kwYears => "YEARS"
  | kwMonths => "MONTHS"
  | kwWeeks => "WEEKS"
  | kwDays => "DAYS"
  | kwHours => "HOURS"
  | kwMinutes => "MINUTES"
  | kwSeconds => "SECONDS"
  | kwMilliseconds => "MILLISECONDS"
  | litFalse => "FALSE"
  | litTrue => "TRUE"
  | quotedString => "STRING"
  | tyInt => "INT"
  | tyLong => "LONG"
  | tyFloat => "FLOAT"
  | tyDouble => "DOUBLE"
  | tyBool => "BOOL"
  | tyObject => "OBJECT"
  | quotedIdent => "ID_QUOTES"
  | ident => "ID"
  | stringLiteral => "STRING_LITERAL"
  | intLiteral => "INT_LITERAL"
  | longLiteral => "LONG_LITERAL"
  | floatLiteral => "FLOAT_LITERAL"
  | doubleLiteral => "DOUBLE_LITERAL"
  | script => "SCRIPT"
  | lineComment => "SINGLE_LINE_COMMENT"
  | blockComment => "MULTILINE_COMMENT"
  | spaces => "SPACES"
  | unexpectedChar => "UNEXPECTED_CHAR"

/-- The quoted spelling of a kind that has a fixed one. -/
def literal : Kind → Option String
  | colon => some "':'"
  | semicolon => some "';'"
  | dot => some "'.'"
  | openParen => some "'('"
  | closeParen => some "')'"
  | openBracket => some "'['"
  | closeBracket => some "']'"
  | comma => some "','"
  | assign => some "'='"
  | star => some "'*'"
  | plus => some "'+'"
  | question => some "'?'"
  | minus => some "'-'"
  | slash => some "'/'"
  | percent => some "'%'"
  | less => some "'<'"
  | lessEq => some "'<='"
  | greater => some "'>'"
  | greaterEq => some "'>='"
  | equal => some "'=='"
  | notEqual => some "'!='"
  | atSign => some "'@'"
  | arrow => some "'->'"
  | hash => some "'#'"
  | _ => none

/-- All kinds, in order. -/
def all : List Kind :=
  [.eof, .colon, .semicolon, .dot, .openParen, .closeParen, .openBracket, .closeBracket, .comma,
   .assign, .star, .plus, .question, .minus, .slash, .percent, .less, .lessEq, .greater,
   .greaterEq, .equal, .notEqual, .atSign, .arrow, .hash, .kwStream, .kwDefine, .kwFunction,
   .kwTrigger, .kwTable, .kwPlan, .kwFrom, .kwPartition, .kwWindow, .kwSelect, .kwGroup, .kwBy,
   .kwHaving, .kwInsert, .kwDelete, .kwUpdate, .kwReturn, .kwEvents, .kwInto, .kwOutput,
   .kwExpired, .kwCurrent, .kwSnapshot, .kwFor, .kwRaw, .kwOf, .kwAs, .kwAt, .kwOr, .kwAnd, .kwIn,
   .kwOn, .kwIs, .kwNot, .kwWithin, .kwWith, .kwBegin, .kwEnd, .kwNull, .kwEvery, .kwLast, .kwAll,
   .kwFirst, .kwJoin, .kwInner, .kwOuter, .kwRight, .kwLeft, .kwFull, .kwUnidirectional, .kwYears,
   .kwMonths, .kwWeeks, .kwDays, .kwHours, .kwMinutes, .kwSeconds, .kwMilliseconds, .litFalse,
   .litTrue, .quotedString, .tyInt, .tyLong, .tyFloat, .tyDouble, .tyBool, .tyObject, .quotedIdent,
   .ident, .stringLiteral, .intLiteral, .longLiteral, .floatLiteral, .doubleLiteral, .script,
   .lineComment, .blockComment, .spaces, .unexpectedChar]

/-- The number of kinds. -/
def count : Nat := 104

/-- The position of a kind in the order of the lexer. -/
def index (k : Kind) : Nat := k.ctorIdx

/-- The code of the end of the token stream. -/
def eofCode : Int := -1

/-- The code that the lexer gives to a kind. -/
def code (k : Kind) : Int :=
  if k = eof then eofCode else k.index

/-- The kind with a given symbolic name. -/
def ofName? (s : String) : Option Kind :=
  all.find? fun k => k.name == s

/-- The kind with a given quoted spelling. -/
def ofLiteral? (s : String) : Option Kind :=
  all.find? fun k => k.literal == some s

/-- The kind with a given code. -/
def ofCode? (c : Int) : Option Kind :=
  if c = eofCode then some eof
  else if 0 < c then all[c.toNat]? else none

/-! ## Positions -/

theorem length_all : all.length = count := rfl

theorem getElem?_all_index (k : Kind) : all[k.index]? = some k := by
  cases k <;> rfl

theorem index_inj {a b : Kind} (h : a.index = b.index) : a = b := by
  have := getElem?_all_index a
  rw [h, getElem?_all_index] at this
  exact (Option.some.inj this).symm

theorem index_lt_count (k : Kind) : k.index < count := by
  cases k <;> decide

theorem mem_all (k : Kind) : k ∈ all :=
  List.mem_of_getElem? (getElem?_all_index k)

theorem index_of_getElem?_all {i : Nat} {k : Kind} (h : all[i]? = some k) : k.index = i := by
  have hi : i < count := by
    rw [← length_all]
    exact (List.getElem?_eq_some_iff.1 h).1
  have key : ∀ i < count, (all[i]?).map index = some i := by decide
  have := key i hi
  rw [h] at this
  simpa using this

/-! ## Look-ups -/

theorem code_eof : eof.code = eofCode := rfl

theorem code_of_ne_eof {k : Kind} (h : k ≠ eof) : k.code = k.index := by
  simp [code, h]

theorem index_pos_of_ne_eof {k : Kind} (h : k ≠ eof) : 0 < k.index := by
  rcases Nat.eq_zero_or_pos k.index with h0 | h0
  · exact absurd (index_inj (b := eof) h0) h
  · exact h0

theorem ofCode?_code (k : Kind) : ofCode? k.code = some k := by
  by_cases hk : k = eof
  · subst hk; rfl
  · have h := index_pos_of_ne_eof hk
    rw [code_of_ne_eof hk, ofCode?, if_neg (by simp only [eofCode]; omega), if_pos (by omega)]
    simpa using getElem?_all_index k

theorem ofCode?_eq_some_iff {c : Int} {k : Kind} : ofCode? c = some k ↔ k.code = c := by
  constructor
  · intro h
    unfold ofCode? at h
    split at h
    · cases h; exact Eq.symm ‹_›
    · split at h
      · have hk := index_of_getElem?_all h
        have hne : k ≠ eof := by
          rintro rfl
          have : (0 : Nat) = c.toNat := hk
          omega
        rw [code_of_ne_eof hne, hk]
        omega
      · cases h
  · rintro rfl
    exact ofCode?_code k

theorem code_inj {a b : Kind} (h : a.code = b.code) : a = b := by
  have := ofCode?_code a
  rw [h, ofCode?_code] at this
  exact (Option.some.inj this).symm

theorem ofName?_name (k : Kind) : ofName? k.name = some k := by
  cases k <;> rfl

theorem ofName?_eq_some_iff {s : String} {k : Kind} : ofName? s = some k ↔ k.name = s := by
  constructor
  · intro h
    have := List.find?_some h
    simpa using this
  · rintro rfl
    exact ofName?_name k

theorem name_inj {a b : Kind} (h : a.name = b.name) : a = b := by
  have := ofName?_name a
  rw [h, ofName?_name] at this
  exact (Option.some.inj this).symm

theorem ofLiteral?_literal {k : Kind} {s : String} (h : k.literal = some s) :
    ofLiteral? s = some k := by
  cases k <;> first
    | (cases h; done)
    | (obtain rfl := Option.some.inj h; rfl)

theorem ofLiteral?_eq_some_iff {s : String} {k : Kind} :
    ofLiteral? s = some k ↔ k.literal = some s := by
  constructor
  · intro h
    have := List.find?_some h
    simpa using this
  · exact ofLiteral?_literal

end Kind

end TokenHighlight
