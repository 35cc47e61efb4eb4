import TokenHighlight.Kind

/-!
# Elements of a document

An element is a token with its code, an inner node of the parse tree with the number of its grammar
rule, or a token whose kind has no code here.  Codes may belong to no known kind.
-/

namespace TokenHighlight

/-- An element of a document, as an editor sees it. -/
inductive Element where
  /-- A token with its code. -/
  | token (code : Int)
  /-- A node of the parse tree, made by the grammar rule with this number. -/
  | rule (index : Nat)
  /-- A token whose kind cannot be given by a code. -/
  | unknown
  deriving DecidableEq

namespace Element

/-- The element of a token of a known kind. -/
def ofKind (k : Kind) : Element := token k.code

/-- The known kind of an element. -/
def kind? : Element → Option Kind
  | token c => Kind.ofCode? c
  | rule _ => none
  | unknown => none

/-- Whether an element is a token. -/
def isToken : Element → Bool
  | rule _ => false
  | _ => true

@[simp] theorem kind?_ofKind (k : Kind) : (ofKind k).kind? = some k := Kind.ofCode?_code k

end Element

end TokenHighlight
