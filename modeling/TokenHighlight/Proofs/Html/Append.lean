import TokenHighlight.Proofs.Html.ReadBack

/-!
# Texts put together

Two texts with their tokens, those of the second text moved behind the first, are marked up as the
two are (`Marks.append`): only the plain text where they meet becomes one part.  In HTML nothing is
seen of that, so the form of the whole is that of its parts (`highlightHtml_append`).
-/

namespace TokenHighlight

open Text

/-- The token, moved by a number of bytes. -/
def Token.shift (n : Nat) (token : Token) : Token :=
  ⟨token.element, ⟨n + token.span.start, n + token.span.stop⟩⟩

namespace Markup

/-- A marked-up text behind plain text and highlighted parts. -/
def appendTo (n : Markup) : List Char → List MarkedSpan → Markup
  | lead, [] => ⟨lead ++ n.lead, n.spans⟩
  | lead, s :: spans =>
      let rest := n.appendTo s.trail spans
      ⟨lead, ⟨s.tag, s.content, rest.lead⟩ :: rest.spans⟩

/-- Two marked-up texts, one after the other. -/
def append (m n : Markup) : Markup := n.appendTo m.lead m.spans

theorem body_appendTo (n : Markup) (lead : List Char) (spans : List MarkedSpan) :
    (n.appendTo lead spans).body = body ⟨lead, spans⟩ ++ n.body := by
  induction spans generalizing lead with
  | nil => simp only [appendTo, body, Html.escape_append, List.flatMap_nil, List.append_nil,
      List.append_assoc]
  | cons s spans ih =>
      have hrest := ih s.trail
      simp only [body] at hrest
      simp only [appendTo, body, List.flatMap_cons, Html.span, List.append_assoc, hrest]

/-- What is inside the element is written part by part. -/
theorem body_append (m n : Markup) : (m.append n).body = m.body ++ n.body :=
  body_appendTo n m.lead m.spans

theorem appendTo_append (n : Markup) (plain lead : List Char) (spans : List MarkedSpan) :
    n.appendTo (plain ++ lead) spans =
      ⟨plain ++ (n.appendTo lead spans).lead, (n.appendTo lead spans).spans⟩ := by
  cases spans with
  | nil => simp only [appendTo, List.append_assoc]
  | cons s spans => rfl

theorem append_prepend (tag? : Option Tag) (gap piece : List Char) (m n : Markup) :
    (m.prepend tag? gap piece).append n = (m.append n).prepend tag? gap piece := by
  cases tag? with
  | none => simp only [append, prepend, appendTo_append]
  | some tag => rfl

end Markup

/-! ## Slices of a longer text -/

namespace Text

variable {cs piece : List Char} {start stop : Nat}

theorem IsSlice.append_right (h : IsSlice cs start stop piece) (ds : List Char) :
    IsSlice (cs ++ ds) start stop piece := by
  obtain ⟨before, after, rfl, hstart, hstop⟩ := h
  exact ⟨before, after ++ ds, by simp only [List.append_assoc], hstart, hstop⟩

theorem IsSlice.append_left (h : IsSlice cs start stop piece) (ds : List Char) :
    IsSlice (ds ++ cs) (byteLength ds + start) (byteLength ds + stop) piece := by
  obtain ⟨before, after, rfl, rfl, rfl⟩ := h
  refine ⟨ds ++ before, after, List.append_assoc _ _ _, byteLength_append _ _, ?_⟩
  rw [Nat.add_assoc]

end Text

namespace Table

variable {t : Table} {cs ds : List Char} {cursor : Nat} {tokens tokens' : List Token} {m n : Markup}

/-! ## Marked-up texts -/

theorem Marks.shift (h : t.Marks ds cursor tokens n) (cs : List Char) :
    t.Marks (cs ++ ds) (byteLength cs + cursor) (tokens.map (Token.shift (byteLength cs))) n := by
  induction h with
  | nil hrest =>
      refine .nil ?_
      rw [byteLength_append]
      exact hrest.append_left cs
  | cons hgap hpiece _ ih => exact .cons (hgap.append_left cs) (hpiece.append_left cs) ih

theorem Marks.append (hm : t.Marks cs cursor tokens m)
    (hn : t.Marks (cs ++ ds) (byteLength cs) tokens' n) :
    t.Marks (cs ++ ds) cursor (tokens ++ tokens') (m.append n) := by
  induction hm with
  | nil hrest => exact hn.plain_append (hrest.append_right ds)
  | cons hgap hpiece _ ih =>
      rw [Markup.append_prepend]
      exact .cons (hgap.append_right ds) (hpiece.append_right ds) ih

end Table

/-! ## HTML -/

theorem highlightHtml_eq_ok_code_iff {t : Table} {text body : String} {tokens : List Token} :
    t.highlightHtml text tokens = .ok ("<code>" ++ body ++ "</code>") ↔
      ∃ m, t.Marks text.toList 0 tokens m ∧ body.toList = m.body := by
  rw [highlightHtml_eq_ok_iff]
  refine exists_congr fun m => and_congr_right fun _ => ?_
  rw [← String.toList_inj, String.toList_ofList, String.toList_append, String.toList_append,
    Markup.html_eq_body, List.append_assoc]
  show Html.openCode ++ (body.toList ++ Html.closeCode) = _ ↔ _
  rw [List.append_cancel_left_eq, List.append_cancel_right_eq]

/-- If two texts are highlighted, so is the one text that they make together, and what is inside the
element is that of the first and then that of the second. -/
theorem highlightHtml_append (t : Table) (text₁ text₂ body₁ body₂ : String)
    (tokens₁ tokens₂ : List Token)
    (h₁ : t.highlightHtml text₁ tokens₁ = .ok ("<code>" ++ body₁ ++ "</code>"))
    (h₂ : t.highlightHtml text₂ tokens₂ = .ok ("<code>" ++ body₂ ++ "</code>")) :
    t.highlightHtml (text₁ ++ text₂)
        (tokens₁ ++ tokens₂.map (Token.shift text₁.utf8ByteSize)) =
      .ok ("<code>" ++ (body₁ ++ body₂) ++ "</code>") := by
  obtain ⟨m, hm, hbody₁⟩ := highlightHtml_eq_ok_code_iff.1 h₁
  obtain ⟨n, hn, hbody₂⟩ := highlightHtml_eq_ok_code_iff.1 h₂
  have hshift := hn.shift text₁.toList
  rw [Nat.add_zero] at hshift
  refine highlightHtml_eq_ok_code_iff.2 ⟨m.append n, ?_, ?_⟩
  · rw [String.toList_append, ← byteLength_toList]
    exact hm.append hshift
  · rw [String.toList_append, hbody₁, hbody₂, Markup.body_append]

/-- Plain text after the last token of one text and before the first token of the other. -/
theorem highlightHtml_append_plain :
    Table.standard.highlightHtml "é<" [⟨.ofKind .ident, ⟨0, 2⟩⟩] =
      .ok ("<code>" ++ "<span class=\"sql-id\">é</span>&lt;" ++ "</code>") ∧
    Table.standard.highlightHtml "> b" [⟨.rule 3, ⟨0, 1⟩⟩, ⟨.ofKind .kwStream, ⟨2, 3⟩⟩] =
      .ok ("<code>" ++ "&gt; <span class=\"sql-key\">b</span>" ++ "</code>") ∧
    Table.standard.highlightHtml ("é<" ++ "> b") [⟨.ofKind .ident, ⟨0, 2⟩⟩, ⟨.rule 3, ⟨3, 4⟩⟩,
        ⟨.ofKind .kwStream, ⟨5, 6⟩⟩] =
      .ok ("<code>" ++ ("<span class=\"sql-id\">é</span>&lt;" ++
        "&gt; <span class=\"sql-key\">b</span>") ++ "</code>") := by
  have h₁ : Table.standard.highlightHtml "é<" [⟨.ofKind .ident, ⟨0, 2⟩⟩] =
      .ok ("<code>" ++ "<span class=\"sql-id\">é</span>&lt;" ++ "</code>") := by decide +kernel
  have h₂ : Table.standard.highlightHtml "> b" [⟨.rule 3, ⟨0, 1⟩⟩, ⟨.ofKind .kwStream, ⟨2, 3⟩⟩] =
      .ok ("<code>" ++ "&gt; <span class=\"sql-key\">b</span>" ++ "</code>") := by decide +kernel
  exact ⟨h₁, h₂, highlightHtml_append _ _ _ _ _ _ _ h₁ h₂⟩

end TokenHighlight
