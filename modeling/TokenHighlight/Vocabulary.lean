import TokenHighlight.Element

/-!
# Vocabularies

A `Vocabulary` names the tokens and the rules of a grammar.  Tokens have symbolic names and quoted
literal names, each with a code; rules are numbered by their position.  `builtin` is the vocabulary
of the known kinds.
-/

namespace TokenHighlight

/-- The token names and rule names of a grammar. -/
structure Vocabulary where
  /-- The token names with their codes, in order.  Literal names keep their quotes. -/
  entries : List (String × Int)
  /-- The rule names, in order. -/
  rules : List String
  deriving DecidableEq

/-- Whether a name is a symbolic token name: a letter or underscore, then letters, digits and
underscores. -/
def isSymbolicName : List Char → Bool
  | [] => false
  | c :: cs => (c.isAlpha || c == '_') && cs.all fun c => c.isAlphanum || c == '_'

/-- Whether a name is a quoted literal name: something between two single quotes. -/
def isLiteralName (cs : List Char) : Bool :=
  3 ≤ cs.length && cs.head? == some '\x27' && cs.getLast? == some '\x27'

namespace Vocabulary

/-- The rules of the query language's grammar, in the order of the parser. -/
def grammarRules : List String :=
  ["parse", "error", "siddhi_app", "execution_element", "definition_stream", "definition_table",
   "definition_function", "definition_trigger", "function_body", "annotation", "app_annotation",
   "annotation_element", "partition", "partition_with_stream", "condition_ranges", "query",
   "query_input", "standard_stream", "join_stream", "join_source", "pattern_stream",
   "sequence_stream", "basic_source", "window", "query_section", "group_by", "having",
   "output_rate", "query_output", "output_event_type", "output_attribute", "attribute_reference",
   "expression", "math_operation", "function_operation", "time_value", "constant_value",
   "signed_int_value", "string_value", "attribute_type", "name", "keyword"]

/-- The names of a kind with its code: the symbolic name, then the literal if there is one. -/
def entriesOf (k : Kind) : List (String × Int) :=
  (k.name, k.code) :: (k.literal.map fun s => (s, k.code)).toList

/-- The vocabulary of the known kinds, the end of the token stream excepted. -/
def builtin : Vocabulary :=
  ⟨(Kind.all.filter (· != .eof)).flatMap entriesOf, grammarRules⟩

instance : Inhabited Vocabulary := ⟨builtin⟩

/-- The code of a token name. -/
def token? (v : Vocabulary) (name : String) : Option Int := v.entries.lookup name

/-- The symbolic names with their codes, in order. -/
def symbolic (v : Vocabulary) : List (String × Int) :=
  v.entries.filter fun e => !isLiteralName e.1.toList

/-- The first symbolic name with a given code. -/
def tokenName? (v : Vocabulary) (code : Int) : Option String :=
  (v.symbolic.find? fun e => e.2 == code).map Prod.fst

/-- The number of a rule. -/
def rule? (v : Vocabulary) (name : String) : Option Nat := v.rules.idxOf? name

/-- The name of a rule. -/
def ruleName? (v : Vocabulary) (index : Nat) : Option String := v.rules[index]?

/-- The element that a token name or else a rule name stands for. -/
def element? (v : Vocabulary) (name : String) : Option Element :=
  match v.token? name with
  | some code => some (.token code)
  | none => (v.rule? name).map .rule

end Vocabulary

end TokenHighlight
