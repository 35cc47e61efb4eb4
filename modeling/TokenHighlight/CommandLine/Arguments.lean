/-!
# Arguments of the command line

What a user can ask for: one of four commands with its options, a configuration file, colour and the
amount of logging.
-/

namespace TokenHighlight

/-- When to use colour. -/
inductive ColorChoice where
  /-- If the terminal supports it. -/
  | auto
  /-- In any case. -/
  | always
  /-- Not at all. -/
  | never
  deriving DecidableEq

/-- A format of reports. -/
inductive ReportFormat where
  /-- JSON. -/
  | json
  /-- YAML. -/
  | yaml
  deriving DecidableEq

/-- A format of the classification table. -/
inductive TableFormat where
  /-- JSON. -/
  | json
  /-- YAML. -/
  | yaml
  /-- The vocabulary in the tokens format. -/
  | tokens
  deriving DecidableEq

/-- A format of highlighted texts. -/
inductive HighlightFormat where
  /-- HTML. -/
  | html
  /-- The rows of the tokens in JSON. -/
  | json
  deriving DecidableEq

/-- What to do. -/
inductive Command where
  /-- Classify kinds given by name, literal or code. -/
  | classify (kinds : List String)
  /-- Print the classification table. -/
  | table (format : TableFormat)
  /-- Check a tokens file against the known kinds. -/
  | check (tokens : String) (format? : Option ReportFormat)
  /-- Highlight a text with its token stream. -/
  | highlight (input tokens : String) (output? : Option String) (format : HighlightFormat)
  deriving DecidableEq

/-- The arguments of a run. -/
structure Arguments where
  /-- What to do. -/
  command : Command
  /-- The configuration file. -/
  config? : Option String
  /-- When to use colour. -/
  color : ColorChoice
  /-- How much to log. -/
  verbosity : Nat
  deriving DecidableEq

/-- What is wrong with the arguments. -/
inductive UsageError where
  /-- An argument means nothing. -/
  | unknownArgument
  /-- The value of an option or operand is missing or not accepted. -/
  | invalidValue
  /-- A required option or operand is missing. -/
  | missingArgument
  /-- The command does not exist. -/
  | invalidCommand
  /-- An option is given twice. -/
  | repeatedOption
  /-- A flag is given a value. -/
  | unneededValue
  /-- There is no command. -/
  | missingCommand
  /-- There are no arguments at all. -/
  | noArguments
  deriving DecidableEq

/-- Why arguments do not start a run. -/
inductive Stop where
  /-- The arguments are wrong. -/
  | usage (e : UsageError)
  /-- The user asks for help. -/
  | help
  /-- The user asks for the version. -/
  | version
  deriving DecidableEq

/-! ## Words -/

/-- The word for a choice of colour. -/
def ColorChoice.word : ColorChoice → String
  | auto => "auto"
  | always => "always"
  | never => "never"

/-- The choice of colour with a given word. -/
def ColorChoice.ofWord? (s : String) : Option ColorChoice :=
  [auto, always, never].find? fun c => c.word == s

/-- The word for a format of reports. -/
def ReportFormat.word : ReportFormat → String
  | json => "json"
  | yaml => "yaml"

/-- The format of reports with a given word. -/
def ReportFormat.ofWord? (s : String) : Option ReportFormat :=
  [json, yaml].find? fun f => f.word == s

/-- The word for a format of the table. -/
def TableFormat.word : TableFormat → String
  | json => "json"
  | yaml => "yaml"
  | tokens => "tokens"

/-- The format of the table with a given word. -/
def TableFormat.ofWord? (s : String) : Option TableFormat :=
  [json, yaml, tokens].find? fun f => f.word == s

/-- The word for a format of highlighted texts. -/
def HighlightFormat.word : HighlightFormat → String
  | html => "html"
  | json => "json"

/-- The format of highlighted texts with a given word. -/
def HighlightFormat.ofWord? (s : String) : Option HighlightFormat :=
  [html, json].find? fun f => f.word == s

theorem ColorChoice.ofWord?_word (c : ColorChoice) : ofWord? c.word = some c := by
  cases c <;> rfl

theorem ReportFormat.ofWord?_word (f : ReportFormat) : ofWord? f.word = some f := by
  cases f <;> rfl

theorem TableFormat.ofWord?_word (f : TableFormat) : ofWord? f.word = some f := by
  cases f <;> rfl

theorem HighlightFormat.ofWord?_word (f : HighlightFormat) : ofWord? f.word = some f := by
  cases f <;> rfl

end TokenHighlight
