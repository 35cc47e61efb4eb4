import TokenHighlight.Proofs.Html.ReadBack

/-!
# Tokens without tags

A token without a tag is plain text, so it can be left out: what is before it, the token and what
follows it make one plain part (`Marks.omitsUntagged`).  Whether a text is highlighted at all, and
what is wrong if it is not, depends on the spans of the tokens only (`map_markupFrom_eq_checkSpans`).
-/

namespace TokenHighlight

open Text

/-- What is wrong with the first of some spans that does not fit the rest of a text, which begins at
byte `cursor`. -/
def Text.checkSpans : List Char → Nat → List Span → Except SpanError Unit
  | _, _, [] => .ok ()
  | rest, cursor, span :: spans =>
      if span.start < cursor then .error (.overlap span cursor)
      else
        match cut? rest cursor span with
        | none => .error (.outside span)
        | some (_, _, rest) => checkSpans rest span.stop spans

namespace Table

variable {t : Table} {cs : List Char} {cursor : Nat} {tokens fewer : List Token} {m : Markup}

/-- Any tokens without tags are left out of a token stream. -/
inductive OmitsUntagged (t : Table) : List Token → List Token → Prop
  | nil : OmitsUntagged t [] []
  | keep {tokens fewer : List Token} (token : Token) (h : OmitsUntagged t tokens fewer) :
      OmitsUntagged t (token :: tokens) (token :: fewer)
  | drop {tokens fewer : List Token} {token : Token} (htoken : t.tagsOf token.element = [])
      (h : OmitsUntagged t tokens fewer) : OmitsUntagged t (token :: tokens) fewer

theorem classify_eq_none_iff {e : Element} : t.classify e = none ↔ t.tagsOf e = [] := by
  rw [tagsOf, Option.toList_eq_nil_iff]

/-- What is left out becomes part of the plain text around it. -/
theorem Marks.omitsUntagged (hfewer : t.OmitsUntagged tokens fewer)
    (h : t.Marks cs cursor tokens m) : t.Marks cs cursor fewer m := by
  induction hfewer generalizing cursor m with
  | nil => exact h
  | keep token _ ih =>
      cases h with
      | cons hgap hpiece h => exact .cons hgap hpiece (ih h)
  | drop htoken _ ih =>
      cases h with
      | cons hgap hpiece h =>
          rw [classify_eq_none_iff.2 htoken]
          exact ((ih h).plain_append hpiece).plain_append hgap

theorem map_markupFrom_eq_checkSpans (t : Table) (rest : List Char) (cursor : Nat)
    (tokens : List Token) : (t.markupFrom rest cursor tokens).map (fun _ => ()) =
      checkSpans rest cursor (tokens.map (·.span)) := by
  induction tokens generalizing rest cursor with
  | nil => rfl
  | cons token tokens ih =>
      rw [List.map_cons, markupFrom, checkSpans]
      split_ifs with hlt
      · rfl
      · cases hcut : cut? rest cursor token.span with
        | none => rfl
        | some parts =>
            obtain ⟨gap, piece, after⟩ := parts
            dsimp only
            rw [← ih]
            cases t.markupFrom after token.span.stop tokens <;> rfl

end Table

theorem map_highlightHtml_eq_checkSpans (t : Table) (text : String) (tokens : List Token) :
    (t.highlightHtml text tokens).map (fun _ => ()) =
      checkSpans text.toList 0 (tokens.map (·.span)) := by
  rw [← t.map_markupFrom_eq_checkSpans, Table.highlightHtml, Table.markup]
  cases t.markupFrom text.toList 0 tokens <;> rfl

/-- Results that are the same but for their values are both values or the same error. -/
theorem exists_ok_or_exists_error {ε α β : Type} {x : Except ε α} {y : Except ε β}
    (h : x.map (fun _ => ()) = y.map fun _ => ()) :
    (∃ a b, x = .ok a ∧ y = .ok b) ∨ ∃ e, x = .error e ∧ y = .error e := by
  cases x with
  | error e =>
      cases y with
      | error e' =>
          cases h
          exact Or.inr ⟨e, rfl, rfl⟩
      | ok b => cases h
  | ok a =>
      cases y with
      | error e' => cases h
      | ok b => exact Or.inl ⟨a, b, rfl, rfl⟩

/-- Tokens without tags do not show in the result, so any of them may be left out.  Token streams
with the same spans both succeed or both fail with the same error, whatever their elements are and
however these are classified. -/
theorem highlightHtml_ignores_untagged (t : Table) (text : String) (tokens : List Token) :
    (∀ html fewer, t.highlightHtml text tokens = .ok html → t.OmitsUntagged tokens fewer →
      t.highlightHtml text fewer = .ok html) ∧
    ∀ (u : Table) (tokens' : List Token), tokens'.map (·.span) = tokens.map (·.span) →
      (∃ html html', t.highlightHtml text tokens = .ok html ∧
        u.highlightHtml text tokens' = .ok html') ∨
      ∃ e, t.highlightHtml text tokens = .error e ∧ u.highlightHtml text tokens' = .error e := by
  refine ⟨fun html fewer h hfewer => ?_, fun u tokens' hspans => ?_⟩
  · obtain ⟨m, hm, rfl⟩ := highlightHtml_eq_ok_iff.1 h
    exact highlightHtml_eq_ok_iff.2 ⟨m, hm.omitsUntagged hfewer, rfl⟩
  · apply exists_ok_or_exists_error
    rw [map_highlightHtml_eq_checkSpans, map_highlightHtml_eq_checkSpans, hspans]

/-- A rule before an identifier and an unknown token after it are left out; a stream that cuts a
character fails with any table. -/
theorem highlightHtml_ignores_untagged_rule :
    ∃ html e,
      Table.standard.highlightHtml "é<b>" [⟨.rule 3, ⟨0, 2⟩⟩, ⟨.ofKind .ident, ⟨3, 4⟩⟩,
        ⟨.unknown, ⟨4, 5⟩⟩] = .ok html ∧
      Table.standard.highlightHtml "é<b>" [⟨.ofKind .ident, ⟨3, 4⟩⟩] = .ok html ∧
      Table.standard.highlightHtml "é<b>" [⟨.rule 3, ⟨0, 1⟩⟩] = .error e ∧
      Table.blank.highlightHtml "é<b>" [⟨.ofKind .ident, ⟨0, 1⟩⟩] = .error e := by
  have hhtml : Table.standard.highlightHtml "é<b>" [⟨.rule 3, ⟨0, 2⟩⟩, ⟨.ofKind .ident, ⟨3, 4⟩⟩,
      ⟨.unknown, ⟨4, 5⟩⟩] = .ok ("<code>é&lt;<span class=\"sql-id\">b</span>&gt;</code>") := by
    decide +kernel
  have hfewer : Table.standard.OmitsUntagged [⟨.rule 3, ⟨0, 2⟩⟩, ⟨.ofKind .ident, ⟨3, 4⟩⟩,
      ⟨.unknown, ⟨4, 5⟩⟩] [⟨.ofKind .ident, ⟨3, 4⟩⟩] := .drop rfl (.keep _ (.drop rfl .nil))
  have herror : Table.standard.highlightHtml "é<b>" [⟨.rule 3, ⟨0, 1⟩⟩] =
      .error (.outside ⟨0, 1⟩) := by decide +kernel
  refine ⟨_, _, hhtml, (highlightHtml_ignores_untagged _ _ _).1 _ _ hhtml hfewer, herror, ?_⟩
  rcases (highlightHtml_ignores_untagged .standard "é<b>" [⟨.rule 3, ⟨0, 1⟩⟩]).2 .blank
    [⟨.ofKind .ident, ⟨0, 1⟩⟩] rfl with ⟨html, -, hok, -⟩ | ⟨e, he, hblank⟩
  · cases herror.symm.trans hok
  · cases herror.symm.trans he
    exact hblank

end TokenHighlight
