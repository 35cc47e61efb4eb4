import TokenHighlight.NameMap
import TokenHighlight.Tag

/-!
# Configurations

A configuration says whether the tokens that the lexer leaves over (white space and unmatched
characters) keep their tags, and reassigns kinds by their symbolic names.
-/

namespace TokenHighlight

/-- A configuration of the classification. -/
structure Config where
  /-- Whether white space and unmatched characters are highlighted like keywords. -/
  keepLeftovers : Bool
  /-- The kinds with another classification, by symbolic name. -/
  overrides : NameMap Classification

namespace Config

/-- The configuration that changes nothing. -/
def default : Config := ⟨true, .empty⟩

instance : Inhabited Config := ⟨default⟩

end Config

end TokenHighlight
