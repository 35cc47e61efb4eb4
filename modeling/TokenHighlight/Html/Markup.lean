import TokenHighlight.Highlight
import TokenHighlight.HintedError
import TokenHighlight.Number.Decimal

/-!
# Marked-up texts

A `Markup` is a text cut into plain parts and spans with tags.  `Table.markup` makes one from a text
and its tokens, which have to be in order, inside the text and on character boundaries; `SpanError`
says what is wrong with the first token that is not.
-/

namespace TokenHighlight

/-- A highlighted part of a text, with the plain text after it. -/
structure MarkedSpan where
  /-- How the part is highlighted. -/
  tag : Tag
  /-- The highlighted text. -/
  content : List Char
  /-- The plain text up to the next highlighted part. -/
  trail : List Char
  deriving DecidableEq

/-- A text with highlighted parts. -/
structure Markup where
  /-- The plain text before the first highlighted part. -/
  lead : List Char
  /-- The highlighted parts. -/
  spans : List MarkedSpan
  deriving DecidableEq

/-- The text without its markup. -/
def Markup.text (m : Markup) : List Char :=
  m.lead ++ m.spans.flatMap fun s => s.content ++ s.trail

/-- Why a token stream does not fit its text. -/
inductive SpanError where
  /-- A token starts before the previous one ends. -/
  | overlap (span : Span) (previousStop : Nat)
  /-- A token is reversed, ends outside the text or cuts a character. -/
  | outside (span : Span)
  deriving DecidableEq

namespace SpanError

/-- A span in messages. -/
def spanText (span : Span) : String :=
  String.ofList (Decimal.ofNat span.start ++ ['.', '.'] ++ Decimal.ofNat span.stop)

/-- The message about a token stream that does not fit its text. -/
def message : SpanError → String
  | overlap span previousStop =>
      "token at " ++ spanText span ++ " overlaps the previous token ending at " ++
        String.ofList (Decimal.ofNat previousStop)
  | outside span =>
      "token at " ++ spanText span ++ " is out of bounds or not on a character boundary"

end SpanError

instance : ToHintedError SpanError := ⟨fun e => .ofMessage e.message⟩

/-- The plain text before a token, its text, and the rest, for a text that begins at byte `cursor`
and a token that starts there or later. -/
def Text.cut? (rest : List Char) (cursor : Nat) (span : Span) :
    Option (List Char × List Char × List Char) :=
  match Text.splitAt? rest (span.start - cursor) with
  | none => none
  | some (gap, rest) =>
      if span.stop < span.start then none
      else
        match Text.splitAt? rest (span.stop - span.start) with
        | none => none
        | some (piece, rest) => some (gap, piece, rest)

/-- Puts the plain text before a token and the token in front of a marked-up text. -/
def Markup.prepend (tag? : Option Tag) (gap piece : List Char) (m : Markup) : Markup :=
  match tag? with
  | none => ⟨gap ++ (piece ++ m.lead), m.spans⟩
  | some tag => ⟨gap, ⟨tag, piece, m.lead⟩ :: m.spans⟩

/-- The markup of the rest of a text, which begins at byte `cursor`. -/
def Table.markupFrom (t : Table) :
    List Char → Nat → List Token → Except SpanError Markup
  | rest, _, [] => .ok ⟨rest, []⟩
  | rest, cursor, token :: tokens =>
      if token.span.start < cursor then .error (.overlap token.span cursor)
      else
        match Text.cut? rest cursor token.span with
        | none => .error (.outside token.span)
        | some (gap, piece, rest) =>
            match t.markupFrom rest token.span.stop tokens with
            | .error e => .error e
            | .ok m => .ok (m.prepend (t.classify token.element) gap piece)

/-- The markup of a text. -/
def Table.markup (t : Table) (text : List Char) (tokens : List Token) : Except SpanError Markup :=
  t.markupFrom text 0 tokens

end TokenHighlight
