import TokenHighlight.Program.Run
import TokenHighlight.Proofs.Html.Validation
import TokenHighlight.Proofs.Vocabulary.Grammar

/-!
# What the user is told about a failure

`Failure.IsToldAs` gives the message and the hints for each failure and `HintedError.IsPrinted` the
lines about them.  A run that is aborted leaves nothing behind but these lines, after the log
(`Outcome.Aborts`).
-/

namespace TokenHighlight

/-! ## Messages and hints -/

/-- The words for why a file cannot be read. -/
inductive FileError.IsToldAs : FileError → String → Prop
  | system {e : OsError} :
      IsToldAs (.system e) (e.text ++ " (os error " ++ toString e.code ++ ")")
  | notText : IsToldAs .notText "stream did not contain valid UTF-8"

/-- The words for what is wrong with a line of a tokens file. -/
inductive LineError.IsToldAs : LineError → String → Prop
  | missingCode {line : List Char} :
      IsToldAs (.missingCode line) ("expected `NAME=code`, found `" ++ String.ofList line ++ "`")
  | invalidName {name : List Char} :
      IsToldAs (.invalidName name) ("invalid token name `" ++ String.ofList name ++ "`")
  | invalidCode {code : List Char} :
      IsToldAs (.invalidCode code) ("invalid token code `" ++ String.ofList code ++ "`")
  | duplicateName {name : List Char} :
      IsToldAs (.duplicateName name) ("duplicate token name `" ++ String.ofList name ++ "`")

/-- The words for what is wrong with a span. -/
inductive SpanError.IsToldAs : SpanError → String → Prop
  | overlap {span : Span} {previousStop : Nat} :
      IsToldAs (.overlap span previousStop)
        ("token at " ++ toString span.start ++ ".." ++ toString span.stop ++
          " overlaps the previous token ending at " ++ toString previousStop)
  | outside {span : Span} :
      IsToldAs (.outside span)
        ("token at " ++ toString span.start ++ ".." ++ toString span.stop ++
          " is out of bounds or not on a character boundary")

/-- The error about a kind that means nothing. -/
def unknownKindError (kind : String) : HintedError :=
  ⟨"unknown token kind `" ++ kind ++ "`",
    ["token names are upper case, for example `PLUS` or `ID`",
      "run `streamql table` to list all of them"]⟩

/-- The message and the hints about a failure.  What is wrong with a text that is no TOML is said in
any words, and the position of a mistake in a JSON text may be added. -/
inductive Failure.IsToldAs : Failure → HintedError → Prop
  | unreadable {path words : String} {e : FileError} (h : e.IsToldAs words) :
      IsToldAs (.unreadable path e) ⟨"failed to read " ++ path ++ " (" ++ words ++ ")", []⟩
  | badConfig {path words : String} {e : ConfigError} (h : e ≠ .malformed → words = e.reason) :
      IsToldAs (.badConfig path e)
        ⟨"failed to parse configuration: " ++ words, ["in configuration file " ++ path]⟩
  | badOverride {name : String} :
      IsToldAs (.badOverride (.unknownKind name))
        ⟨"unknown token kind `" ++ name ++ "` in overrides",
          ["run `streamql table` to list the token names"]⟩
  | badTokens {path words : String} {e : TokensError} (h : e.cause.IsToldAs words) :
      IsToldAs (.badTokens path e)
        ⟨"line " ++ toString e.line ++ ": " ++ words, ["while reading " ++ path]⟩
  | badStream {path : String} {e : Json.ReadError} (position : String) :
      IsToldAs (.badStream path e)
        ⟨"failed to parse token stream " ++ path ++ " (" ++ (e.message ++ position) ++ ")", []⟩
  | badSpan {words : String} {e : SpanError} (h : e.IsToldAs words) :
      IsToldAs (.badSpan e) ⟨words, ["the token stream must be sorted and match the source file"]⟩
  | unknownKind {kind : String} :
      IsToldAs (.unknownKind (.unknownKind kind)) (unknownKindError kind)
  | unwritable {path words : String} {e : OsError} (h : FileError.IsToldAs (.system e) words) :
      IsToldAs (.unwritable path e) ⟨"failed to write " ++ path ++ " (" ++ words ++ ")", []⟩

theorem FileError.isToldAs_message (e : FileError) : e.IsToldAs e.message := by
  cases e with
  | system e =>
      rw [message, OsError.message, Decimal.ofList_ofNat]
      exact .system
  | notText => exact .notText

theorem LineError.isToldAs_message (e : LineError) : e.IsToldAs e.message := by
  cases e with
  | missingCode line => exact .missingCode
  | invalidName name => exact .invalidName
  | invalidCode code => exact .invalidCode
  | duplicateName name => exact .duplicateName

theorem SpanError.isToldAs_message (e : SpanError) : e.IsToldAs e.message := by
  cases e with
  | overlap span previousStop =>
      rw [message, spanText_eq, Decimal.ofList_ofNat, ← String.append_assoc, ← String.append_assoc]
      exact .overlap
  | outside span =>
      rw [message, spanText_eq, ← String.append_assoc, ← String.append_assoc]
      exact .outside

theorem Failure.isToldAs_report (f : Failure) : f.IsToldAs f.report := by
  cases f with
  | unreadable path e => exact .unreadable e.isToldAs_message
  | badConfig path e => exact .badConfig fun _ => rfl
  | badOverride e =>
      cases e with
      | unknownKind name => exact .badOverride
  | badTokens path e =>
      show IsToldAs _ ⟨e.message, _⟩
      rw [Vocabulary.message_eq]
      exact .badTokens e.cause.isToldAs_message
  | badStream path e =>
      have hstream : IsToldAs (.badStream path e) _ := .badStream ""
      rwa [String.append_empty] at hstream
  | badSpan e => exact .badSpan e.isToldAs_message
  | unknownKind e =>
      cases e with
      | unknownKind kind => exact .unknownKind
  | unwritable path e => exact .unwritable (FileError.isToldAs_message (.system e))

/-! ## Lines -/

/-- How the word that opens a line is written: as it is, or else bold and in a colour of the
terminal's palette, with the style set back before and after it. -/
inductive IsHeading (word number : String) : Bool → String → Prop
  | plain : IsHeading word number false word
  | colored : IsHeading word number true
      ("\x1b[0m\x1b[1m\x1b[38;5;" ++ number ++ "m" ++ word ++ "\x1b[0m")

/-- The text is a line with the message and then a line with each hint. -/
def HintedError.IsPrinted (e : HintedError) (colored : Bool) (text : String) : Prop :=
  ∃ error hint, IsHeading "error" "9" colored error ∧ IsHeading "hint" "14" colored hint ∧
    text = error ++ ": " ++ e.message ++ "\n" ++
      String.join (e.hints.map fun h => hint ++ ": " ++ h ++ "\n")

theorem isHeading_heading (colored : Bool) (c : HeadingColor) (word : String) :
    IsHeading word c.number colored (heading colored c word) := by
  cases colored with
  | false => exact .plain
  | true =>
      cases c with
      | red => exact .colored
      | cyan => exact .colored

theorem HintedError.isPrinted_printed (e : HintedError) (colored : Bool) :
    e.IsPrinted colored (e.printed colored) :=
  ⟨_, _, isHeading_heading colored .red "error", isHeading_heading colored .cyan "hint", rfl⟩

/-! ## Aborted runs -/

/-- The text tells the user about the failure. -/
def Failure.IsReported (f : Failure) (colored : Bool) (text : String) : Prop :=
  ∃ e, f.IsToldAs e ∧ e.IsPrinted colored text

theorem Failure.isReported_printed (f : Failure) (colored : Bool) :
    f.IsReported colored (f.report.printed colored) :=
  ⟨_, f.isToldAs_report, f.report.isPrinted_printed colored⟩

/-- The run ends with a failure and has no effect but the report of it after the log. -/
structure Outcome.Aborts (o : Outcome) (files : Files) (f : Failure) (colored : Bool)
    (log : String) : Prop where
  exit : o.exit = 1
  stdout : o.stdout = ""
  stderr : ∃ text, f.IsReported colored text ∧ o.stderr = log ++ text
  files : o.files = files

theorem Outcome.Aborts.of_printed (files : Files) (f : Failure) (colored : Bool) (log : String) :
    Aborts ⟨⟨1, "", log ++ f.report.printed colored⟩, files⟩ files f colored log :=
  ⟨rfl, rfl, ⟨_, f.isReported_printed colored, rfl⟩, rfl⟩

end TokenHighlight
