import TokenHighlight.Element
import TokenHighlight.Table
import TokenHighlight.Text.Utf8

/-!
# Classification of token streams

`Table.classify` finds the tag of an element and `Table.highlightTokens` the tags of a token stream.
A `Row` is what is known about a token of a text: its span, the text there and its tag.
-/

namespace TokenHighlight

/-- A range of bytes. -/
structure Span where
  /-- The first byte. -/
  start : Nat
  /-- The byte after the last. -/
  stop : Nat
  deriving DecidableEq

/-- A token of a text. -/
structure Token where
  /-- The kind of the token. -/
  element : Element
  /-- The bytes of the token in the text. -/
  span : Span
  deriving DecidableEq

namespace Table

/-- The tag of an element; nodes of the parse tree and unknown tokens have none. -/
def classify (t : Table) (e : Element) : Option Tag :=
  match e.kind? with
  | some k => t.get k
  | none => none

/-- The tags of an element: one or none. -/
def tagsOf (t : Table) (e : Element) : List Tag := (t.classify e).toList

/-- The span and the tags of each token. -/
def highlightTokens (t : Table) (tokens : List Token) : List (Span × List Tag) :=
  tokens.map fun token => (token.span, t.tagsOf token.element)

@[simp] theorem classify_ofKind (t : Table) (k : Kind) : t.classify (.ofKind k) = t.get k := by
  simp [classify]

end Table

/-- What is known about a token of a text. -/
structure Row where
  /-- The bytes of the token. -/
  span : Span
  /-- The text of the token, if its span is one of the text. -/
  text? : Option (List Char)
  /-- The tag of the token. -/
  tag? : Option Tag
  deriving DecidableEq

/-- The rows of a token stream. -/
def Table.rows (t : Table) (text : List Char) (tokens : List Token) : List Row :=
  tokens.map fun token =>
    ⟨token.span, Text.slice? text token.span.start token.span.stop, t.classify token.element⟩

end TokenHighlight
