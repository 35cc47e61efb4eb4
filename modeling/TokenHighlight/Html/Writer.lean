import TokenHighlight.Html.Document

/-!
# Writing HTML token by token

`Table.writeHtml` writes the HTML form of a text in one pass over its tokens.  A `Writer` holds what
has been written and where the last token ends.  The text after the last token is taken without a
check; if it cannot be taken, the result is `none`.
-/

namespace TokenHighlight

/-- HTML in the making. -/
structure Writer where
  /-- What has been written. -/
  html : List Char
  /-- Where the last token ends. -/
  cursor : Nat
  deriving DecidableEq

namespace Writer

/-- Nothing but the start of the element. -/
def start : Writer := ⟨Html.openCode, 0⟩

/-- The form of the text of a token with some tags. -/
def tokenHtml (tags : List Tag) (piece : List Char) : List Char :=
  tags.flatMap (fun tag => Html.openSpan ++ tag.cssClass.toList ++ Html.openSpanEnd) ++
    Html.escape piece ++ tags.flatMap fun _ => Html.closeSpan

/-- Writes the text before a token and the token. -/
def write (t : Table) (cs : List Char) (w : Writer) (token : Token) : Except SpanError Writer :=
  if token.span.start < w.cursor then .error (.overlap token.span w.cursor)
  else
    match Text.slice? cs w.cursor token.span.start,
      Text.slice? cs token.span.start token.span.stop with
    | some gap, some piece =>
        .ok ⟨w.html ++ Html.escape gap ++ tokenHtml (t.tagsOf token.element) piece,
          token.span.stop⟩
    | _, _ => .error (.outside token.span)

/-- The whole element, with the text after the last token. -/
def finish (cs : List Char) (w : Writer) : Option (List Char) :=
  (Text.splitAt? cs w.cursor).map fun (_, rest) => w.html ++ Html.escape rest ++ Html.closeCode

end Writer

/-- The HTML form of a text, written token by token. -/
def Table.writeHtml (t : Table) (cs : List Char) (tokens : List Token) :
    Except SpanError (Option (List Char)) :=
  (tokens.foldlM (Writer.write t cs) Writer.start).map (Writer.finish cs)

end TokenHighlight
