import TokenHighlight.HintedError
import TokenHighlight.Number.Decimal
import TokenHighlight.Text.Blank
import TokenHighlight.Text.Lines
import TokenHighlight.Vocabulary

/-!
# The tokens format

A tokens file has a line `NAME=CODE` for each token name.  `Vocabulary.toTokens` writes a vocabulary
in this format and `Vocabulary.ofTokens` reads it.  A `TokensError` is the first check that fails on
the first line that is wrong.
-/

namespace TokenHighlight

/-- What is wrong with a line of a tokens file. -/
inductive LineError where
  /-- There is no equals sign. -/
  | missingCode (line : List Char)
  /-- The name is neither symbolic nor quoted. -/
  | invalidName (name : List Char)
  /-- The code is no integer of 32 bits. -/
  | invalidCode (code : List Char)
  /-- An earlier line has the same name. -/
  | duplicateName (name : List Char)
  deriving DecidableEq

/-- A wrong line of a tokens file. -/
structure TokensError where
  /-- The number of the line, counted from one. -/
  line : Nat
  /-- What is wrong with the line. -/
  cause : LineError
  deriving DecidableEq

/-- The message about the cause of an error. -/
def LineError.message : LineError → String
  | missingCode line => "expected `NAME=code`, found `" ++ String.ofList line ++ "`"
  | invalidName name => "invalid token name `" ++ String.ofList name ++ "`"
  | invalidCode code => "invalid token code `" ++ String.ofList code ++ "`"
  | duplicateName name => "duplicate token name `" ++ String.ofList name ++ "`"

/-- The message about a wrong line. -/
def TokensError.message (e : TokensError) : String :=
  "line " ++ String.ofList (Decimal.ofNat e.line) ++ ": " ++ e.cause.message

instance : ToHintedError TokensError := ⟨fun e => .ofMessage e.message⟩

namespace Vocabulary

/-! ## Writing -/

/-- The line of an entry. -/
def entryLine (e : String × Int) : List Char :=
  e.1.toList ++ '=' :: Decimal.ofInt e.2 ++ ['\n']

/-- The tokens file of a vocabulary, as characters. -/
def tokenLines (v : Vocabulary) : List Char := v.entries.flatMap entryLine

/-- The tokens file of a vocabulary. -/
def toTokens (v : Vocabulary) : String := String.ofList v.tokenLines

/-! ## Reading -/

/-- The name and the code on a line that is not empty and has no blanks around it. -/
def readEntry (line : List Char) : Except LineError (String × Int) :=
  match Text.splitLast? '=' line with
  | none => .error (.missingCode line)
  | some (name, code) =>
      if !isSymbolicName name && !isLiteralName name then .error (.invalidName name)
      else
        match Decimal.toCode? (Text.trim code) with
        | none => .error (.invalidCode code)
        | some n => .ok (String.ofList name, n)

/-- The entries on the lines from number `number` on, whose names differ from those `seen` before.
-/
def readLines (number : Nat) (seen : List String) :
    List (List Char) → Except TokensError (List (String × Int))
  | [] => .ok []
  | line :: lines =>
      let line := Text.trim line
      if line.isEmpty then readLines (number + 1) seen lines
      else
        match readEntry line with
        | .error e => .error ⟨number, e⟩
        | .ok entry =>
            if seen.contains entry.1 then .error ⟨number, .duplicateName entry.1.toList⟩
            else
              match readLines (number + 1) (entry.1 :: seen) lines with
              | .error e => .error e
              | .ok entries => .ok (entry :: entries)

/-- The vocabulary of a tokens file; it has no rules. -/
def ofTokens (text : String) : Except TokensError Vocabulary :=
  match readLines 1 [] (Text.lines text.toList) with
  | .error e => .error e
  | .ok entries => .ok ⟨entries, []⟩

end Vocabulary

end TokenHighlight
