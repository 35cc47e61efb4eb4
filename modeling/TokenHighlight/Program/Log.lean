import TokenHighlight.Number.Decimal
import TokenHighlight.Text.Hex

/-!
# Logging

An `Event` is something that the program notes while it runs.  Each event has a level, and the
verbosity that the user asks for decides which levels are shown.
-/

namespace TokenHighlight

/-- How important an event is. -/
inductive LogLevel where
  /-- The input is not as it should be. -/
  | warn
  /-- A step of the program. -/
  | info
  /-- A detail. -/
  | debug
  deriving DecidableEq

namespace LogLevel

/-- The word for a level, five characters wide. -/
def word : LogLevel → String
  | warn => " WARN"
  | info => " INFO"
  | debug => "DEBUG"

/-- The least verbosity that shows a level. -/
def leastVerbosity : LogLevel → Nat
  | warn => 1
  | info => 2
  | debug => 3

end LogLevel

/-- What the program notes while it runs. -/
inductive Event where
  /-- The classification has been configured. -/
  | configured (keepLeftovers : Bool) (overrides : Nat)
  /-- A configuration file has been read. -/
  | loadedConfig (path : String)
  /-- A vocabulary is about to be checked. -/
  | checking (names : Nat)
  /-- A vocabulary differs from the known kinds. -/
  | outOfSync (unknown mismatched missing : Nat)
  /-- A code in a token stream has more than 32 bits. -/
  | codeOutOfRange (code : Int)
  /-- A name in a token stream stands for no kind. -/
  | unknownKind (name : String)
  /-- A text is about to be highlighted. -/
  | highlighting (path : String) (tokens : Nat)
  deriving DecidableEq

namespace Event

/-- The level of an event. -/
def level : Event → LogLevel
  | configured _ _ => .debug
  | loadedConfig _ => .info
  | checking _ => .info
  | outOfSync _ _ _ => .warn
  | codeOutOfRange _ => .warn
  | unknownKind _ => .warn
  | highlighting _ _ => .info

/-- The part of the program that an event comes from. -/
def target : Event → String
  | configured _ _ => "streamql_syntax::highlight"
  | loadedConfig _ => "streamql_cli"
  | checking _ => "streamql_cli::check"
  | outOfSync _ _ _ => "streamql_syntax::vocab"
  | codeOutOfRange _ => "streamql_cli::highlight"
  | unknownKind _ => "streamql_cli::highlight"
  | highlighting _ _ => "streamql_cli::highlight"

/-- A number in a log. -/
def number (n : Nat) : String := String.ofList (Decimal.ofNat n)

/-- What an event says. -/
def message : Event → String
  | configured _ _ => "configured classification table"
  | loadedConfig _ => "loaded highlighting configuration"
  | checking names => "Checking " ++ number names ++ " token names"
  | outOfSync _ _ _ => "vocabulary is out of sync with the built-in token kinds"
  | codeOutOfRange _ => "token code is out of range"
  | unknownKind _ => "unknown token kind in token stream"
  | highlighting path _ => "Highlighting " ++ path

/-- The named values of an event. -/
def fields : Event → List (String × String)
  | configured keepLeftovers overrides =>
      [("legacy_quirks", if keepLeftovers then "true" else "false"),
        ("overrides", number overrides)]
  | loadedConfig path => [("path", path)]
  | checking _ => []
  | outOfSync unknown mismatched missing =>
      [("unknown", number unknown), ("mismatched", number mismatched),
        ("missing", number missing)]
  | codeOutOfRange code => [("code", String.ofList (Decimal.ofInt code))]
  | unknownKind name => [("name", name)]
  | highlighting _ tokens => [("tokens", number tokens)]

/-- A character of a message.  Those that may start a command to the terminal are written as
escapes. -/
def escape (c : Char) : List Char :=
  let n := c.toNat
  if n = 0x07 ∨ n = 0x08 ∨ n = 0x0C ∨ n = 0x1B ∨ n = 0x7F then
    '\\' :: 'x' :: Hex.fixed Hex.lower 2 n
  else if 0x80 ≤ n ∧ n ≤ 0x9F then '\\' :: 'u' :: '\x7b' :: Hex.minimal n ++ ['\x7d']
  else [c]

/-- The line of an event in the log.  Only the message is escaped, not the named values. -/
def line (e : Event) : String :=
  e.level.word ++ " " ++ e.target ++ ": " ++ String.ofList (e.message.toList.flatMap escape) ++
    String.join (e.fields.map fun f => " " ++ f.1 ++ "=" ++ f.2) ++ "\n"

/-- Whether an event is shown. -/
def isShown (verbosity : Nat) (e : Event) : Bool := e.level.leastVerbosity ≤ verbosity

/-- The log of a list of events. -/
def log (verbosity : Nat) (events : List Event) : String :=
  String.join ((events.filter (isShown verbosity)).map line)

end Event

end TokenHighlight
