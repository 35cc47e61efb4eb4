import TokenHighlight.Program.Render
import TokenHighlight.Proofs.Html.Validation
import TokenHighlight.Proofs.Json.Value
import TokenHighlight.Proofs.TokenStream.Reading

/-!
# The rows of a token stream and its HTML form

The rows that are written as JSON and the HTML form are made in two ways, one token at a time and
in one walk over the text.  They tell the same: the HTML form exists if and only if every row has a
text and the rows are in order, and it can then be put together from the rows
(`highlightHtml_agrees_with_rows`).
-/

namespace TokenHighlight

open Text

namespace Row

/-- Each row begins where the row before it ends or later, the first one at byte `cursor` or
later. -/
def InOrder : Nat → List Row → Prop
  | _, [] => True
  | cursor, r :: rows => cursor ≤ r.span.start ∧ InOrder r.span.stop rows

/-- The HTML form of a row with a text. -/
def html (r : Row) (piece : List Char) : List Char :=
  match r.tag? with
  | none => Html.escape piece
  | some tag =>
      "<span class=\"".toList ++ tag.cssClass.toList ++ "\">".toList ++ Html.escape piece ++
        "</span>".toList

theorem html_eq_tokenHtml (r : Row) (piece : List Char) :
    r.html piece = Writer.tokenHtml r.tag?.toList piece := by
  rw [html, Writer.tokenHtml]
  cases r.tag? with
  | none => exact (List.append_nil _).symm
  | some tag =>
      rw [Option.toList_some, List.flatMap_singleton, List.flatMap_singleton]
      rfl

/-- The rows from byte `cursor` on with the text of `cs` before, between and after them. -/
def assembleFrom? (cs : List Char) : Nat → List Row → Option (List Char)
  | cursor, [] => (slice? cs cursor (byteLength cs)).map Html.escape
  | cursor, r :: rows => do
      let gap ← slice? cs cursor r.span.start
      let piece ← r.text?
      let tail ← assembleFrom? cs r.span.stop rows
      return Html.escape gap ++ (r.html piece ++ tail)

/-- The document that is put together from rows and the text around them. -/
def assemble? (cs : List Char) (rows : List Row) : Option (List Char) :=
  (assembleFrom? cs 0 rows).map fun body => "<code>".toList ++ (body ++ "</code>".toList)

end Row

/-- A row says of a token what there is to say: its span, its tags, and its text if there is one. -/
structure Table.Describes (t : Table) (text : String) (r : Row) (token : Token) : Prop where
  span_eq : r.span = token.span
  tags_eq : r.tag?.toList = t.tagsOf token.element
  text_eq_some_iff : ∀ piece, r.text? = some piece ↔
    IsSlice text.toList token.span.start token.span.stop piece
  text_eq_none_iff : r.text? = none ↔
    ¬(token.span.start ≤ token.span.stop ∧ token.span.stop ≤ text.utf8ByteSize ∧
      (String.Pos.Raw.mk token.span.start).IsValid text ∧
      (String.Pos.Raw.mk token.span.stop).IsValid text)

namespace Table

variable {t : Table} {cs : List Char}

theorem rows_cons (t : Table) (cs : List Char) (token : Token) (tokens : List Token) :
    t.rows cs (token :: tokens) =
      ⟨token.span, slice? cs token.span.start token.span.stop, t.classify token.element⟩ ::
        t.rows cs tokens := rfl

/-- There is one row for each token, in order. -/
theorem forall₂_describes_rows (t : Table) (text : String) (tokens : List Token) :
    List.Forall₂ (t.Describes text) (t.rows text.toList tokens) tokens := by
  rw [rows, List.forall₂_map_left_iff, List.forall₂_same]
  intro token _
  refine ⟨rfl, rfl, fun piece => slice?_eq_some_iff, ?_⟩
  rw [slice?_eq_none_iff, isBoundary_toList_iff, isBoundary_toList_iff]
  apply not_congr
  constructor
  · rintro ⟨hle, hstart, hstop⟩
    exact ⟨hle, hstop.le_utf8ByteSize, hstart, hstop⟩
  · rintro ⟨hle, -, hstart, hstop⟩
    exact ⟨hle, hstart, hstop⟩

/-! ## Success -/

/-- Each token may follow the one before it if and only if no row lacks its text and the rows are in
order. -/
theorem forall_isNext_iff_rows {cursor : Nat} {tokens : List Token} :
    (∀ p ∈ Token.withPrevious cursor tokens, p.2.span.IsNext cs p.1) ↔
      (∀ r ∈ t.rows cs tokens, r.text? ≠ none) ∧ Row.InOrder cursor (t.rows cs tokens) := by
  induction tokens generalizing cursor with
  | nil => simp [rows, Row.InOrder]
  | cons token tokens ih =>
      have hhead : token.span.IsNext cs cursor ↔ cursor ≤ token.span.start ∧
          slice? cs token.span.start token.span.stop ≠ none := by
        rw [Span.IsNext, Ne, slice?_eq_none_iff, not_not]
      rw [Token.withPrevious_cons, List.forall_mem_cons, rows_cons, List.forall_mem_cons,
        Row.InOrder, hhead, ih]
      constructor
      · rintro ⟨⟨hcursor, htext⟩, htexts, horder⟩
        exact ⟨⟨htext, htexts⟩, hcursor, horder⟩
      · rintro ⟨⟨htext, htexts⟩, hcursor, horder⟩
        exact ⟨⟨hcursor, htext⟩, htexts, horder⟩

theorem exists_marks_iff_rows {tokens : List Token} :
    (∃ m, t.Marks cs 0 tokens m) ↔
      (∀ r ∈ t.rows cs tokens, r.text? ≠ none) ∧ Row.InOrder 0 (t.rows cs tokens) := by
  rw [← forall_isNext_iff_rows]
  constructor
  · rintro ⟨m, hm⟩
    exact hm.isNext (isBoundary_zero cs)
  · intro h
    exact exists_marks_of_isNext (isBoundary_zero cs) h

/-! ## The document -/

theorem Marks.assembleFrom?_eq {cursor : Nat} {tokens : List Token} {m : Markup}
    (h : t.Marks cs cursor tokens m) :
    Row.assembleFrom? cs cursor (t.rows cs tokens) = some m.body := by
  induction h with
  | nil hrest => simp [rows, Row.assembleFrom?, slice?_eq_some_iff.2 hrest, Markup.body]
  | @cons cursor token tokens gap piece m hgap hpiece _ ih =>
      have hgap := slice?_eq_some_iff.2 hgap
      have hpiece := slice?_eq_some_iff.2 hpiece
      rw [rows_cons, Row.assembleFrom?, Markup.body_prepend]
      simp only [hgap, hpiece, ih]
      exact congrArg (fun html => some (Html.escape gap ++ (html ++ m.body)))
        (Row.html_eq_tokenHtml _ piece)

theorem Marks.assemble?_eq {tokens : List Token} {m : Markup} (h : t.Marks cs 0 tokens m) :
    Row.assemble? cs (t.rows cs tokens) = some m.html := by
  rw [Row.assemble?, h.assembleFrom?_eq, Option.map_some, m.html_eq_body]
  rfl

/-! ## The rows in JSON -/

/-- What the row of a token says in JSON. -/
theorem toData_eq (r : Row) : r.toData =
    .record
      [("span", .list [.int r.span.start, .int r.span.stop]),
        ("text", match r.text? with
          | none => .null
          | some piece => .text (String.ofList piece)),
        ("tags", .list (r.tag?.toList.map fun tag => .text tag.name))] := by
  rw [Row.toData]
  cases r.text? <;> rfl

theorem fitsWord_natCast {n : Nat} (h : n ≤ Json.maxWord) : Json.FitsWord n := by
  rw [Json.maxWord] at h
  exact ⟨by omega, by omega⟩

theorem isExact_toData {r : Row} (h : r.span.FitsWord) : Json.IsExact 2 r.toData := by
  have hspan : Json.IsExact 1 (.list [.int r.span.start, .int r.span.stop]) := by
    refine .list fun x hx => ?_
    simp only [List.mem_cons, List.not_mem_nil, or_false] at hx
    rcases hx with rfl | rfl
    · exact .int (fitsWord_natCast h.1)
    · exact .int (fitsWord_natCast h.2)
  have htext : Json.IsExact 1 (.ofText? (r.text?.map String.ofList)) := by
    cases r.text? with
    | none => exact .null
    | some piece => exact .text _
  have htags : Json.IsExact 1 (.list (r.tag?.toList.map fun tag => .text tag.name)) := by
    refine .list fun x hx => ?_
    obtain ⟨tag, -, rfl⟩ := List.mem_map.1 hx
    exact .text _
  refine .record fun f hf => ?_
  simp only [List.mem_cons, List.not_mem_nil, or_false] at hf
  rcases hf with rfl | rfl | rfl
  · exact hspan
  · exact htext
  · exact htags

theorem read_highlightJson {text : String} {tokens : List Token}
    (h : ∀ token ∈ tokens, token.span.FitsWord) :
    Json.read (t.highlightJson text tokens) =
      .ok (.list ((t.rows text.toList tokens).map Row.toData)) := by
  have hrows : Json.IsExact 3 (.list ((t.rows text.toList tokens).map Row.toData)) := by
    refine .list fun x hx => ?_
    obtain ⟨r, hr, rfl⟩ := List.mem_map.1 hx
    obtain ⟨token, htoken, rfl⟩ := List.mem_map.1 hr
    exact isExact_toData (h token htoken)
  exact Json.read_pretty (hrows.mono (by decide))

end Table

/-- The JSON form of a token stream has a row for every token.  The HTML form exists if and only if
all rows have a text and are in order, and then it is put together from the rows and the text around
them. -/
theorem highlightHtml_agrees_with_rows (t : Table) (text : String) (tokens : List Token) :
    List.Forall₂ (t.Describes text) (t.rows text.toList tokens) tokens ∧
    ((∀ token ∈ tokens, token.span.FitsWord) →
      Json.read (t.highlightJson text tokens) =
        .ok (.list ((t.rows text.toList tokens).map fun r =>
          .record
            [("span", .list [.int r.span.start, .int r.span.stop]),
              ("text", match r.text? with
                | none => .null
                | some piece => .text (String.ofList piece)),
              ("tags", .list (r.tag?.toList.map fun tag => .text tag.name))]))) ∧
    ((∃ html, t.highlightHtml text tokens = .ok html) ↔
      (∀ r ∈ t.rows text.toList tokens, r.text? ≠ none) ∧
        Row.InOrder 0 (t.rows text.toList tokens)) ∧
    ∀ html, t.highlightHtml text tokens = .ok html →
      Row.assemble? text.toList (t.rows text.toList tokens) = some html.toList := by
  refine ⟨t.forall₂_describes_rows text tokens, fun hspans => ?_, ?_, fun html hhtml => ?_⟩
  · rw [Table.read_highlightJson hspans, funext Table.toData_eq]
  · rw [← Table.exists_marks_iff_rows]
    simp only [highlightHtml_eq_ok_iff]
    constructor
    · rintro ⟨html, m, hm, -⟩
      exact ⟨m, hm⟩
    · rintro ⟨m, hm⟩
      exact ⟨_, m, hm, rfl⟩
  · obtain ⟨m, hm, rfl⟩ := highlightHtml_eq_ok_iff.1 hhtml
    rw [hm.assemble?_eq, String.toList_ofList]

end TokenHighlight
