import TokenHighlight.HintedError
import TokenHighlight.Number.Decimal
import TokenHighlight.Vocabulary

/-!
# Naming elements

`Vocabulary.resolve` finds the element that a user means: an integer is a code, then come the
symbolic names of the known kinds, then the names of the vocabulary.  `Vocabulary.describe` writes
an element for the user.
-/

namespace TokenHighlight

/-- Why a text names no element. -/
inductive ResolveError where
  /-- The text is no code and no name. -/
  | unknownKind (name : String)
  deriving DecidableEq

/-- The report about a text that names no element. -/
def ResolveError.report : ResolveError → HintedError
  | unknownKind name =>
      .withHints (.ofMessage ("unknown token kind `" ++ name ++ "`"))
        ["token names are upper case, for example `PLUS` or `ID`",
          "run `streamql table` to list all of them"]

instance : ToHintedError ResolveError := ⟨ResolveError.report⟩

namespace Vocabulary

/-- The element that a text names.  Integers are codes even if no kind has them. -/
def resolve (v : Vocabulary) (name : String) : Except ResolveError Element :=
  match Decimal.toCode? name.toList with
  | some code => .ok (.token code)
  | none =>
      match Kind.ofName? name with
      | some k => .ok (.ofKind k)
      | none =>
          match v.element? name with
          | some e => .ok e
          | none => .error (.unknownKind name)

/-- The words for an element. -/
def describe (v : Vocabulary) : Element → String
  | .token code =>
      let shown := String.ofList (Decimal.ofInt code)
      match Kind.ofCode? code with
      | some k => k.name ++ " (" ++ shown ++ ")"
      | none => "unknown token (" ++ shown ++ ")"
  | .rule index =>
      let shown := String.ofList (Decimal.ofNat index)
      match v.ruleName? index with
      | some name => "rule " ++ name ++ " (" ++ shown ++ ")"
      | none => "unknown rule (" ++ shown ++ ")"
  | .unknown => "unknown token"

end Vocabulary

end TokenHighlight
