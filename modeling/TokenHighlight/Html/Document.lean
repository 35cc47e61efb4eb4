import TokenHighlight.Html.Escape
import TokenHighlight.Html.Markup

/-!
# HTML documents

`Markup.html` writes a marked-up text as an HTML `code` element whose spans carry the style sheet
classes of their tags.  `Markup.ofHtml?` reads the element back.
-/

namespace TokenHighlight

namespace Html

/-- The start of the element. -/
def openCode : List Char := "<code>".toList

/-- The end of the element. -/
def closeCode : List Char := "</code>".toList

/-- The start of a span before its class. -/
def openSpan : List Char := "<span class=\"".toList

/-- The end of the start tag of a span. -/
def openSpanEnd : List Char := "\">".toList

/-- The end of a span. -/
def closeSpan : List Char := "</span>".toList

/-- The text after a fixed beginning. -/
def after? : List Char → List Char → Option (List Char)
  | [], cs => some cs
  | _ :: _, [] => none
  | p :: ps, c :: cs => if p = c then after? ps cs else none

theorem after?_append (ps cs : List Char) : after? ps (ps ++ cs) = some cs := by
  induction ps with
  | nil => rfl
  | cons p ps ih => simp [after?, ih]

/-- A highlighted part and the plain text after it. -/
def span (s : MarkedSpan) : List Char :=
  openSpan ++ s.tag.cssClass.toList ++ openSpanEnd ++ escape s.content ++ closeSpan ++
    escape s.trail

/-- The tag whose style sheet class stands before the next quotation mark, and the rest after it. -/
def readClass? (cs : List Char) : Option (Tag × List Char) :=
  match Tag.ofCssClass? (String.ofList (cs.takeWhile (· != '"'))) with
  | none => none
  | some tag => some (tag, cs.dropWhile (· != '"'))

/-- The highlighted part at the start of a text with the plain text after it, and the rest. -/
def readSpan? (cs : List Char) : Option (MarkedSpan × List Char) := do
  let cs ← after? openSpan cs
  let (tag, cs) ← readClass? cs
  let cs ← after? openSpanEnd cs
  let (content, cs) ← readText? cs
  let cs ← after? closeSpan cs
  let (trail, cs) ← readText? cs
  return (⟨tag, content, trail⟩, cs)

/-- The highlighted parts up to the end of the element, at most `fuel` of them. -/
def readSpans? : Nat → List Char → Option (List MarkedSpan)
  | 0, cs => if cs = closeCode then some [] else none
  | fuel + 1, cs =>
      if cs = closeCode then some []
      else
        match readSpan? cs with
        | none => none
        | some (s, cs) => (readSpans? fuel cs).map (s :: ·)

end Html

/-- The HTML form of a marked-up text. -/
def Markup.html (m : Markup) : List Char :=
  Html.openCode ++ Html.escape m.lead ++ m.spans.flatMap Html.span ++ Html.closeCode

/-- The marked-up text of an HTML form. -/
def Markup.ofHtml? (cs : List Char) : Option Markup := do
  let cs ← Html.after? Html.openCode cs
  let (lead, cs) ← Html.readText? cs
  let spans ← Html.readSpans? cs.length cs
  return ⟨lead, spans⟩

/-- The HTML form of a text, highlighted by its tokens. -/
def Table.highlightHtml (t : Table) (text : String) (tokens : List Token) :
    Except SpanError String :=
  (t.markup text.toList tokens).map fun m => String.ofList m.html

end TokenHighlight
