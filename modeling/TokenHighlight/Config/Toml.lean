import TokenHighlight.Config
import TokenHighlight.Found
import TokenHighlight.HintedError
import TokenHighlight.Toml.Document
import TokenHighlight.Toml.Printer

/-!
# Configurations in TOML

`Config.ofToml` reads a configuration and `Config.toToml` writes one.  A `ConfigError` is the first
problem in document order: nothing in a configuration is ignored.
-/

namespace TokenHighlight

/-- Why a text is no configuration. -/
inductive ConfigError where
  /-- The text is no TOML. -/
  | malformed
  /-- The document has a field that means nothing. -/
  | unknownField (name : String)
  /-- The value of a field has the wrong type. -/
  | wrongType (found : Found) (expected : String)
  /-- An override has a name that is no classification. -/
  | unknownClassification (name : String)
  /-- An override is neither a string nor a table. -/
  | noStringOrTable
  /-- An override is a table without fields. -/
  | noElement
  /-- An override is a table with several fields. -/
  | manyElements
  /-- The only field of an override holds an array or table that is not empty; arrays in brackets
  are called tables here. -/
  | notEmpty (what : String)
  /-- The only field of an override holds no table. -/
  | noTable (found : String)
  deriving DecidableEq

namespace ConfigError

/-- What is wrong with a text that is no configuration. -/
def reason : ConfigError → String
  | malformed => "invalid TOML"
  | unknownField name => "unknown field `" ++ name ++ "`, expected `legacy-quirks` or `overrides`"
  | wrongType found expected =>
      "invalid type: " ++ found.describe Binary64.positional ++ ", expected " ++ expected
  | unknownClassification name =>
      unknownChoice "variant" name (Classification.all.map Classification.name)
  | noStringOrTable => "wanted string or table"
  | noElement => "wanted exactly 1 element, found 0 elements"
  | manyElements => "wanted exactly 1 element, more than 1 element"
  | notEmpty what => "expected empty " ++ what
  | noTable found => "expected table, found " ++ found

/-- The message about a text that is no configuration. -/
def message (e : ConfigError) : String :=
  "failed to parse configuration: " ++ e.reason

end ConfigError

instance : ToHintedError ConfigError := ⟨fun e => .ofMessage e.message⟩

/-! ## Reading -/

namespace Toml.Value

/-- What kind of value this is; dates count as tables. -/
def found : Value → Found
  | string s => .text s
  | integer n => .integer n
  | float x => .float x
  | boolean b => .bool b
  | datetime _ => .map
  | array _ => .sequence
  | tables _ => .sequence
  | table _ => .map

/-- The name of the type of a value. -/
def typeName : Value → String
  | string _ => "string"
  | integer _ => "integer"
  | float _ => "float"
  | boolean _ => "boolean"
  | datetime _ => "datetime"
  | array _ => "array"
  | tables _ => "array of tables"
  | table _ => "table"

end Toml.Value

/-- The classification with a given name. -/
def Classification.named (s : String) : Except ConfigError Classification :=
  match Classification.ofName? s with
  | some c => .ok c
  | Option.none => .error (.unknownClassification s)

/-- Checks that the value of a named classification says nothing more. -/
def Classification.checkPayload : Toml.Value → Except ConfigError Unit
  | .array items => if items.isEmpty then .ok () else .error (.notEmpty "table")
  | .tables items => if items.isEmpty then .ok () else .error (.notEmpty "array")
  | .table fields => if fields.isEmpty then .ok () else .error (.notEmpty "table")
  | x => .error (.noTable x.typeName)

/-- Reads what an override assigns: a name, or a table whose only field has the name. -/
def Classification.ofToml : Toml.Value → Except ConfigError Classification
  | .string s => Classification.named s
  | .table [] => .error .noElement
  | .table [(s, x)] =>
      match Classification.named s with
      | .error e => .error e
      | .ok c =>
          match Classification.checkPayload x with
          | .error e => .error e
          | .ok _ => .ok c
  | .table _ => .error .manyElements
  | _ => .error .noStringOrTable

namespace Config

/-- Reads the overrides one after the other. -/
def readOverrides (m : NameMap Classification) :
    List (String × Toml.Value) → Except ConfigError (NameMap Classification)
  | [] => .ok m
  | (name, x) :: fields =>
      match Classification.ofToml x with
      | .error e => .error e
      | .ok c => readOverrides (m.insert name c) fields

/-- Reads the field for the tokens that the lexer leaves over. -/
def readSwitch : Toml.Value → Except ConfigError Bool
  | .boolean b => .ok b
  | x => .error (.wrongType x.found "a boolean")

/-- Reads the table of overrides.  A date there is taken for a table whose field is the date. -/
def readTable : Toml.Value → Except ConfigError (NameMap Classification)
  | .table fields => readOverrides .empty fields
  | .datetime d => .error (.unknownClassification d.text)
  | x => .error (.wrongType x.found "a map")

/-- Reads the fields of a document one after the other. -/
def readFields (c : Config) : List (String × Toml.Value) → Except ConfigError Config
  | [] => .ok c
  | (name, x) :: fields =>
      if name = "legacy-quirks" then
        match readSwitch x with
        | .error e => .error e
        | .ok b => readFields { c with keepLeftovers := b } fields
      else if name = "overrides" then
        match readTable x with
        | .error e => .error e
        | .ok m => readFields { c with overrides := m } fields
      else .error (.unknownField name)

/-- Reads a configuration from the fields of a document. -/
def ofFields (fields : List (String × Toml.Value)) : Except ConfigError Config :=
  readFields default fields

/-- Reads a configuration. -/
def ofToml (text : String) : Except ConfigError Config :=
  match Toml.parse? text with
  | none => .error .malformed
  | some fields => ofFields fields

/-! ## Writing -/

/-- The line of an override. -/
def overrideLine (e : String × Classification) : List Char :=
  Toml.keyText e.1.toList ++ ' ' :: '=' :: ' ' :: Toml.basicString e.2.name.toList ++ ['\n']

/-- The characters of a configuration in TOML. -/
def tomlText (c : Config) : List Char :=
  "legacy-quirks = ".toList ++ (if c.keepLeftovers then "true".toList else "false".toList) ++
    "\n\n[overrides]\n".toList ++ c.overrides.entries.flatMap overrideLine

/-- The configuration in TOML. -/
def toToml (c : Config) : String := String.ofList c.tomlText

end Config

end TokenHighlight
