import TokenHighlight.Html.Writer
import TokenHighlight.Proofs.Html.ReadBack
import TokenHighlight.Proofs.Number.Decimal

/-!
# Which token streams fit a text

`Span.Fits` says when a token may follow a token that ends at some byte.  A text is highlighted if
and only if all its tokens fit, and the error is about the first that does not
(`markupFrom_eq_error_iff`).  Writing token by token comes to the same, and the text after the last
token can always be taken (`writeHtml_eq`).
-/

namespace TokenHighlight

open Text

/-- The span is inside a text, on character boundaries, and begins at byte `previousStop` or
later. -/
structure Span.Fits (text : String) (previousStop : Nat) (span : Span) : Prop where
  after_previous : previousStop ≤ span.start
  ordered : span.start ≤ span.stop
  inside : span.stop ≤ text.utf8ByteSize
  start_valid : (String.Pos.Raw.mk span.start).IsValid text
  stop_valid : (String.Pos.Raw.mk span.stop).IsValid text

/-- Each token with the end of the token before it, `previousStop` for the first. -/
def Token.withPrevious (previousStop : Nat) (tokens : List Token) : List (Nat × Token) :=
  (previousStop :: tokens.map fun token => token.span.stop).zip tokens

@[simp] theorem Token.withPrevious_nil (previousStop : Nat) :
    Token.withPrevious previousStop [] = [] := rfl

@[simp] theorem Token.withPrevious_cons (previousStop : Nat) (token : Token) (tokens : List Token) :
    Token.withPrevious previousStop (token :: tokens) =
      (previousStop, token) :: Token.withPrevious token.span.stop tokens := rfl

theorem Span.fits_iff {text : String} {previousStop : Nat} {span : Span} :
    span.Fits text previousStop ↔ span.IsNext text.toList previousStop := by
  simp only [Span.IsNext, isBoundary_toList_iff]
  constructor
  · rintro ⟨hprev, hle, -, hstart, hstop⟩
    exact ⟨hprev, hle, hstart, hstop⟩
  · rintro ⟨hprev, hle, hstart, hstop⟩
    exact ⟨hprev, hle, hstop.le_utf8ByteSize, hstart, hstop⟩

namespace Table

variable {t : Table} {cs : List Char}

/-! ## Success -/

theorem Marks.isNext {cursor : Nat} {tokens : List Token} {m : Markup}
    (h : t.Marks cs cursor tokens m) (hcursor : IsBoundary cs cursor) :
    ∀ p ∈ Token.withPrevious cursor tokens, p.2.span.IsNext cs p.1 := by
  induction h with
  | nil _ => simp
  | cons hgap hpiece _ ih =>
      have hnext := (Span.isNext_iff_exists_isSlice hcursor).2 ⟨_, _, hgap, hpiece⟩
      rw [Token.withPrevious_cons, List.forall_mem_cons]
      exact ⟨hnext, ih hnext.2.2.2⟩

theorem exists_marks_of_isNext {cursor : Nat} {tokens : List Token} (hcursor : IsBoundary cs cursor)
    (h : ∀ p ∈ Token.withPrevious cursor tokens, p.2.span.IsNext cs p.1) :
    ∃ m, t.Marks cs cursor tokens m := by
  induction tokens generalizing cursor with
  | nil =>
      obtain ⟨before, rest, hcs, hlen⟩ := hcursor
      exact ⟨⟨rest, []⟩, .nil (IsRest.isSlice ⟨before, hcs, hlen⟩)⟩
  | cons token tokens ih =>
      rw [Token.withPrevious_cons, List.forall_mem_cons] at h
      obtain ⟨hnext, hrest⟩ := h
      obtain ⟨gap, piece, hgap, hpiece⟩ := (Span.isNext_iff_exists_isSlice hcursor).1 hnext
      obtain ⟨m, hm⟩ := ih hnext.2.2.2 hrest
      exact ⟨_, .cons hgap hpiece hm⟩

/-! ## Failure -/

theorem map_eq_error_iff {ε α β : Type} {x : Except ε α} {f : α → β} {e : ε} :
    x.map f = .error e ↔ x = .error e := by
  cases x with
  | error e' => simp [Except.map]
  | ok a => simp [Except.map]

/-- The first token that cannot follow the token before it, and what is wrong with it. -/
def FirstMisfit (cs : List Char) (cursor : Nat) (tokens : List Token) (e : SpanError) : Prop :=
  ∃ before previousStop token after,
    Token.withPrevious cursor tokens = before ++ (previousStop, token) :: after ∧
      (∀ p ∈ before, p.2.span.IsNext cs p.1) ∧ ¬token.span.IsNext cs previousStop ∧
      e = token.span.misfit previousStop

theorem firstMisfit_cons_of_isNext {cursor : Nat} {token : Token} {tokens : List Token}
    {e : SpanError} (h : token.span.IsNext cs cursor) :
    FirstMisfit cs cursor (token :: tokens) e ↔ FirstMisfit cs token.span.stop tokens e := by
  constructor
  · rintro ⟨before, previousStop, misfit, after, heq, hnext, hnot, he⟩
    cases before with
    | nil =>
        obtain ⟨hhead, -⟩ := List.cons.inj heq
        cases hhead
        exact absurd h hnot
    | cons p before =>
        exact ⟨before, previousStop, misfit, after, (List.cons.inj heq).2,
          fun q hq => hnext q (List.mem_cons_of_mem _ hq), hnot, he⟩
  · rintro ⟨before, previousStop, misfit, after, heq, hnext, hnot, he⟩
    refine ⟨(cursor, token) :: before, previousStop, misfit, after, ?_, ?_, hnot, he⟩
    · rw [Token.withPrevious_cons, heq, List.cons_append]
    · exact List.forall_mem_cons.2 ⟨h, hnext⟩

theorem firstMisfit_cons_of_not_isNext {cursor : Nat} {token : Token} {tokens : List Token}
    {e : SpanError} (h : ¬token.span.IsNext cs cursor) :
    FirstMisfit cs cursor (token :: tokens) e ↔ e = token.span.misfit cursor := by
  constructor
  · rintro ⟨before, previousStop, misfit, after, heq, hnext, -, he⟩
    cases before with
    | nil =>
        obtain ⟨hhead, -⟩ := List.cons.inj heq
        cases hhead
        exact he
    | cons p before =>
        obtain ⟨rfl, -⟩ := List.cons.inj heq
        exact absurd (hnext _ List.mem_cons_self) h
  · intro he
    exact ⟨[], cursor, token, _, rfl, by simp, h, he⟩

theorem markupFrom_eq_error_iff {rest : List Char} {cursor : Nat} {tokens : List Token}
    {e : SpanError} (hrest : IsRest cs cursor rest) :
    t.markupFrom rest cursor tokens = .error e ↔ FirstMisfit cs cursor tokens e := by
  induction tokens generalizing rest cursor with
  | nil => simp [markupFrom, FirstMisfit]
  | cons token tokens ih =>
      by_cases hnext : token.span.IsNext cs cursor
      · obtain ⟨gap, piece, hgap, hpiece⟩ :=
          (Span.isNext_iff_exists_isSlice hrest.isBoundary).1 hnext
        obtain ⟨after, hafter, hstep⟩ := markupFrom_cons_of_isSlice hrest hgap hpiece
        rw [firstMisfit_cons_of_isNext hnext, ← ih hafter, hstep, map_eq_error_iff]
      · rw [firstMisfit_cons_of_not_isNext hnext, markupFrom_cons_of_not_isNext hrest hnext,
          Except.error.injEq, eq_comm]

end Table

/-! ## Writing token by token -/

/-- A token in front adds its form, after the text before it. -/
theorem Markup.body_prepend (tag? : Option Tag) (gap piece : List Char) (m : Markup) :
    (m.prepend tag? gap piece).body =
      Html.escape gap ++ (Writer.tokenHtml tag?.toList piece ++ m.body) := by
  cases tag? with
  | none => simp [Writer.tokenHtml, prepend, body]
  | some tag => simp [Writer.tokenHtml, prepend, body, Html.span]

namespace Writer

variable {t : Table} {cs : List Char} {w : Writer} {token : Token}

theorem write_of_isSlice {gap piece : List Char} (hgap : IsSlice cs w.cursor token.span.start gap)
    (hpiece : IsSlice cs token.span.start token.span.stop piece) :
    w.write t cs token = .ok ⟨w.html ++ Html.escape gap ++ tokenHtml (t.tagsOf token.element) piece,
      token.span.stop⟩ := by
  obtain ⟨hprev, -, -⟩ := exists_isSlice_iff.1 ⟨gap, hgap⟩
  rw [write, if_neg (Nat.not_lt.2 hprev), slice?_eq_some_iff.2 hgap, slice?_eq_some_iff.2 hpiece]

theorem write_of_not_isNext (h : ¬token.span.IsNext cs w.cursor) :
    w.write t cs token = .error (token.span.misfit w.cursor) := by
  rw [write, Span.misfit]
  split_ifs with hlt
  · rfl
  · rw [slice?_eq_none_iff.2 fun hin => h ⟨Nat.not_lt.1 hlt, hin⟩]
    split
    · rename_i hnone
      cases hnone
    · rfl

/-- The writer does at every token what the walk through the text does. -/
theorem foldlM_write_eq {rest : List Char} (hrest : IsRest cs w.cursor rest)
    (tokens : List Token) :
    (tokens.foldlM (write t cs) w).map (finish cs) =
      (t.markupFrom rest w.cursor tokens).map fun m =>
        some (w.html ++ m.body ++ Html.closeCode) := by
  induction tokens generalizing w rest with
  | nil =>
      obtain ⟨before, hcs, hlen⟩ := hrest
      have hfinish : finish cs w = some (w.html ++ (Html.escape rest ++ []) ++ Html.closeCode) := by
        rw [finish, splitAt?_eq_some_iff.2 ⟨hcs, hlen⟩, Option.map_some, List.append_nil]
      rw [List.foldlM_nil, Table.markupFrom]
      exact congrArg Except.ok hfinish
  | cons token tokens ih =>
      rw [List.foldlM_cons]
      by_cases hnext : token.span.IsNext cs w.cursor
      · obtain ⟨gap, piece, hgap, hpiece⟩ :=
          (Span.isNext_iff_exists_isSlice hrest.isBoundary).1 hnext
        obtain ⟨after, hafter, hstep⟩ := t.markupFrom_cons_of_isSlice hrest hgap hpiece
        rw [write_of_isSlice hgap hpiece, hstep]
        refine (ih hafter).trans ?_
        cases t.markupFrom after token.span.stop tokens with
        | error e => rfl
        | ok m => simp only [Except.map, Markup.body_prepend, Table.tagsOf, List.append_assoc]
      · rw [write_of_not_isNext hnext, t.markupFrom_cons_of_not_isNext hrest hnext]
        rfl

end Writer

theorem writeHtml_eq (t : Table) (text : String) (tokens : List Token) :
    t.writeHtml text.toList tokens =
      (t.highlightHtml text tokens).map fun html => some html.toList := by
  rw [Table.writeHtml, Writer.foldlM_write_eq (isRest_zero text.toList), Table.highlightHtml,
    Table.markup]
  cases h : t.markupFrom text.toList 0 tokens with
  | error e => simp only [Writer.start, h, Except.map]
  | ok m => simp only [Writer.start, h, Except.map, String.toList_ofList, Markup.html_eq_body,
      List.append_assoc]

/-- A writer that has got through its tokens stands at a boundary. -/
theorem isBoundary_of_foldlM_write {t : Table} {text : String} {tokens : List Token} {w : Writer}
    (h : tokens.foldlM (Writer.write t text.toList) Writer.start = .ok w) :
    IsBoundary text.toList w.cursor := by
  have hall := writeHtml_eq t text tokens
  rw [Table.writeHtml, h] at hall
  rw [← exists_splitAt?_iff]
  cases hsplit : splitAt? text.toList w.cursor with
  | some p => exact ⟨p.1, p.2, rfl⟩
  | none =>
      cases hhtml : t.highlightHtml text tokens with
      | error e => simp [hhtml, Except.map] at hall
      | ok html => simp [hhtml, Except.map, Writer.finish, hsplit] at hall

/-! ## Validation -/

theorem SpanError.spanText_eq (span : Span) :
    spanText span = toString span.start ++ ".." ++ toString span.stop := by
  rw [spanText, String.ofList_append, String.ofList_append, Decimal.ofList_ofNat,
    Decimal.ofList_ofNat]

theorem Span.misfit_message (cursor : Nat) (span : Span) :
    (span.misfit cursor).message =
      if span.start < cursor then
        "token at " ++ toString span.start ++ ".." ++ toString span.stop ++
          " overlaps the previous token ending at " ++ toString cursor
      else
        "token at " ++ toString span.start ++ ".." ++ toString span.stop ++
          " is out of bounds or not on a character boundary" := by
  rw [Span.misfit]
  split_ifs with hlt
  · simp only [SpanError.message, SpanError.spanText_eq, Decimal.ofList_ofNat, String.append_assoc]
  · simp only [SpanError.message, SpanError.spanText_eq, String.append_assoc]

/-- A text is highlighted if and only if each token fits after the one before it.  Otherwise the
error is about the first token that does not.  The text after the last token is always there. -/
theorem highlightHtml_validates (t : Table) (text : String) (tokens : List Token) :
    ((∃ html, t.highlightHtml text tokens = .ok html) ↔
      ∀ p ∈ Token.withPrevious 0 tokens, p.2.span.Fits text p.1) ∧
    (∀ e, t.highlightHtml text tokens = .error e ↔
      ∃ before previousStop token after,
        Token.withPrevious 0 tokens = before ++ (previousStop, token) :: after ∧
          (∀ p ∈ before, p.2.span.Fits text p.1) ∧ ¬token.span.Fits text previousStop ∧
          e = token.span.misfit previousStop) ∧
    (∀ (previousStop : Nat) (span : Span), (span.misfit previousStop).message =
      if span.start < previousStop then
        "token at " ++ toString span.start ++ ".." ++ toString span.stop ++
          " overlaps the previous token ending at " ++ toString previousStop
      else
        "token at " ++ toString span.start ++ ".." ++ toString span.stop ++
          " is out of bounds or not on a character boundary") ∧
    (∀ w, tokens.foldlM (Writer.write t text.toList) Writer.start = .ok w →
      w.cursor ≤ text.utf8ByteSize ∧ (String.Pos.Raw.mk w.cursor).IsValid text) ∧
    t.writeHtml text.toList tokens =
      (t.highlightHtml text tokens).map fun html => some html.toList := by
  simp only [Span.fits_iff]
  refine ⟨?_, fun e => ?_, fun c span => Span.misfit_message c span, fun w hw => ?_,
    writeHtml_eq t text tokens⟩
  · simp only [highlightHtml_eq_ok_iff]
    constructor
    · rintro ⟨html, m, hm, -⟩
      exact hm.isNext (isBoundary_zero _)
    · intro h
      obtain ⟨m, hm⟩ := Table.exists_marks_of_isNext (isBoundary_zero _) h
      exact ⟨_, m, hm, rfl⟩
  · have herror : t.markupFrom text.toList 0 tokens = .error e ↔
        Table.FirstMisfit text.toList 0 tokens e :=
      Table.markupFrom_eq_error_iff (isRest_zero text.toList)
    rw [Table.FirstMisfit] at herror
    rw [← herror, Table.highlightHtml, Table.markup]
    cases t.markupFrom text.toList 0 tokens with
    | error e => simp [Except.map]
    | ok m => simp [Except.map]
  · have hcursor := isBoundary_of_foldlM_write hw
    have hle := hcursor.le_byteLength
    rw [byteLength_toList] at hle
    exact ⟨hle, (isBoundary_toList_iff text w.cursor).1 hcursor⟩

end TokenHighlight
