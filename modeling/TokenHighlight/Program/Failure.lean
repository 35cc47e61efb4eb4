import TokenHighlight.CommandLine.Arguments
import TokenHighlight.Config.Toml
import TokenHighlight.Html.Markup
import TokenHighlight.Program.Files
import TokenHighlight.TokenStream
import TokenHighlight.Vocabulary.Tokens

/-!
# Failures of a run

A `Failure` is the reason why a command does not finish.  `report` is what the user is told about it
and `printed` how that is written, with or without colour.
-/

namespace TokenHighlight

/-- Why a command does not finish. -/
inductive Failure where
  /-- A file cannot be read. -/
  | unreadable (path : String) (e : FileError)
  /-- The configuration file holds no configuration. -/
  | badConfig (path : String) (e : ConfigError)
  /-- The configuration does not fit the kinds. -/
  | badOverride (e : TableError)
  /-- A tokens file is wrong. -/
  | badTokens (path : String) (e : TokensError)
  /-- A token stream cannot be read. -/
  | badStream (path : String) (e : Json.ReadError)
  /-- A token stream does not fit its text. -/
  | badSpan (e : SpanError)
  /-- An argument names no element. -/
  | unknownKind (e : ResolveError)
  /-- A file cannot be written. -/
  | unwritable (path : String) (e : OsError)
  deriving DecidableEq

namespace Failure

/-- The report with one more hint. -/
def hinted {ε : Type} [ToHintedError ε] (e : ε) (hint : String) : HintedError :=
  (ToHintedError.toHintedError e).withHint hint

/-- A step that went wrong with a file. -/
def about (step path reason : String) : HintedError :=
  .ofMessage ("failed to " ++ step ++ " " ++ path ++ " (" ++ reason ++ ")")

/-- What the user is told. -/
def report : Failure → HintedError
  | unreadable path e => about "read" path e.message
  | badConfig path e => hinted e ("in configuration file " ++ path)
  | badOverride e => hinted e "run `streamql table` to list the token names"
  | badTokens path e => hinted e ("while reading " ++ path)
  | badStream path e => about "parse token stream" path e.message
  | badSpan e => hinted e "the token stream must be sorted and match the source file"
  | unknownKind e => e.report
  | unwritable path e => about "write" path e.message

end Failure

instance : ToHintedError Failure := ⟨Failure.report⟩

/-! ## Printing -/

/-- The colour of a heading. -/
inductive HeadingColor where
  /-- For errors. -/
  | red
  /-- For hints. -/
  | cyan
  deriving DecidableEq

namespace HeadingColor

/-- The number of a colour in the terminal's palette. -/
def number : HeadingColor → String
  | red => "9"
  | cyan => "14"

/-- Sets back the style of the terminal. -/
def reset : String := "\x1b[0m"

/-- A bold word in a colour. -/
def paint (c : HeadingColor) (word : String) : String :=
  reset ++ "\x1b[1m" ++ "\x1b[38;5;" ++ c.number ++ "m" ++ word ++ reset

end HeadingColor

/-- Whether a choice of colour means colour when the output is no terminal. -/
def ColorChoice.isColored : ColorChoice → Bool
  | auto => false
  | always => true
  | never => false

/-- The heading of a line. -/
def heading (colored : Bool) (c : HeadingColor) (word : String) : String :=
  if colored then c.paint word else word

/-- The lines about an error and its hints. -/
def HintedError.printed (colored : Bool) (e : HintedError) : String :=
  heading colored .red "error" ++ ": " ++ e.message ++ "\n" ++
    String.join (e.hints.map fun h => heading colored .cyan "hint" ++ ": " ++ h ++ "\n")

end TokenHighlight
