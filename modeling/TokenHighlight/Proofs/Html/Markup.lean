import Mathlib.Tactic.SplitIfs
import TokenHighlight.Html.Markup
import TokenHighlight.Proofs.Text.Slices

/-!
# What marking up a text means

`Table.markupFrom` walks through a text and keeps what is left of it.  `Table.Marks` says what the
walk comes to in terms of the slices of the whole text, and `markupFrom_eq_ok_iff` that it succeeds
with nothing else.
-/

namespace TokenHighlight

namespace Text

/-- What is left of a text after byte `cursor`. -/
def IsRest (cs : List Char) (cursor : Nat) (rest : List Char) : Prop :=
  ∃ before, before ++ rest = cs ∧ byteLength before = cursor

theorem isRest_zero (cs : List Char) : IsRest cs 0 cs := ⟨[], rfl, rfl⟩

theorem IsRest.isBoundary {cs rest : List Char} {cursor : Nat} (h : IsRest cs cursor rest) :
    IsBoundary cs cursor := by
  obtain ⟨before, hcs, hcursor⟩ := h
  exact ⟨before, rest, hcs, hcursor⟩

theorem IsRest.isSlice {cs rest : List Char} {cursor : Nat} (h : IsRest cs cursor rest) :
    IsSlice cs cursor (byteLength cs) rest := by
  obtain ⟨before, rfl, rfl⟩ := h
  exact isSlice_rest

/-- A slice at the cursor stands at the start of the rest. -/
theorem IsRest.isSlice_iff {cs rest piece : List Char} {cursor stop : Nat}
    (h : IsRest cs cursor rest) :
    IsSlice cs cursor stop piece ↔
      ∃ after, rest = piece ++ after ∧ cursor + byteLength piece = stop := by
  obtain ⟨before, rfl, rfl⟩ := h
  constructor
  · rintro ⟨a, b, hab, ha, hstop⟩
    obtain ⟨rfl, rfl⟩ := append_inj_of_byteLength_eq hab ha
    exact ⟨b, rfl, hstop⟩
  · rintro ⟨after, rfl, hstop⟩
    exact ⟨before, after, rfl, rfl, hstop⟩

theorem IsRest.append {cs piece rest : List Char} {cursor : Nat}
    (h : IsRest cs cursor (piece ++ rest)) : IsRest cs (cursor + byteLength piece) rest := by
  obtain ⟨before, rfl, rfl⟩ := h
  exact ⟨before ++ piece, List.append_assoc _ _ _, byteLength_append _ _⟩

/-! ## Cutting out a token -/

theorem cut?_eq_some_iff {rest gap piece after : List Char} {cursor : Nat} {span : Span} :
    cut? rest cursor span = some (gap, piece, after) ↔
      rest = gap ++ (piece ++ after) ∧ byteLength gap = span.start - cursor ∧
        span.start ≤ span.stop ∧ byteLength piece = span.stop - span.start := by
  unfold cut?
  constructor
  · intro h
    split at h
    · cases h
    · rename_i gap' rest' hgap
      split_ifs at h with hlt
      split at h
      · cases h
      · rename_i piece' after' hpiece
        cases h
        obtain ⟨rfl, hg⟩ := splitAt?_eq_some_iff.1 hgap
        obtain ⟨rfl, hp⟩ := splitAt?_eq_some_iff.1 hpiece
        exact ⟨rfl, hg, by omega, hp⟩
  · rintro ⟨rfl, hg, hle, hp⟩
    rw [splitAt?_eq_some_iff.2 ⟨rfl, hg⟩]
    simp only [if_neg (Nat.not_lt.2 hle), splitAt?_eq_some_iff.2 ⟨rfl, hp⟩]

/-- A token is cut out exactly if its text and the text before it are slices. -/
theorem IsRest.cut?_eq_some_iff {cs rest gap piece after : List Char} {cursor : Nat} {span : Span}
    (h : IsRest cs cursor rest) (hcursor : cursor ≤ span.start) :
    cut? rest cursor span = some (gap, piece, after) ↔
      IsSlice cs cursor span.start gap ∧ IsSlice cs span.start span.stop piece ∧
        rest = gap ++ (piece ++ after) := by
  rw [Text.cut?_eq_some_iff]
  constructor
  · rintro ⟨rfl, hg, hle, hp⟩
    have hgap : IsSlice cs cursor span.start gap := h.isSlice_iff.2 ⟨_, rfl, by omega⟩
    have hrest : IsRest cs span.start (piece ++ after) := by
      have := h.append
      rwa [show cursor + byteLength gap = span.start by omega] at this
    exact ⟨hgap, hrest.isSlice_iff.2 ⟨_, rfl, by omega⟩, rfl⟩
  · rintro ⟨hgap, ⟨_, _, -, -, hp⟩, rfl⟩
    obtain ⟨_, -, hg⟩ := h.isSlice_iff.1 hgap
    exact ⟨rfl, by omega, by omega, by omega⟩

theorem IsRest.after_token {cs gap piece after : List Char} {cursor : Nat} {span : Span}
    (h : IsRest cs cursor (gap ++ (piece ++ after))) (hgap : IsSlice cs cursor span.start gap)
    (hpiece : IsSlice cs span.start span.stop piece) : IsRest cs span.stop after := by
  obtain ⟨_, _, -, -, hg⟩ := hgap
  obtain ⟨_, _, -, -, hp⟩ := hpiece
  rw [← hp, ← hg]
  exact h.append.append

theorem IsRest.cut?_eq_none_iff {cs rest : List Char} {cursor : Nat} {span : Span}
    (h : IsRest cs cursor rest) (hcursor : cursor ≤ span.start) :
    cut? rest cursor span = none ↔
      ¬(span.start ≤ span.stop ∧ IsBoundary cs span.start ∧ IsBoundary cs span.stop) := by
  rw [← exists_isSlice_iff, Option.eq_none_iff_forall_ne_some]
  constructor
  · -- the text before the token is never the only thing that cannot be cut out
    rintro hnone ⟨piece, hpiece⟩
    obtain ⟨-, hstart, -⟩ := exists_isSlice_iff.1 ⟨piece, hpiece⟩
    obtain ⟨gap, hgap⟩ := exists_isSlice_iff.2 ⟨hcursor, h.isBoundary, hstart⟩
    obtain ⟨rest', rfl, hg⟩ := h.isSlice_iff.1 hgap
    have hrest : IsRest cs span.start rest' := hg ▸ h.append
    obtain ⟨after, rfl, -⟩ := hrest.isSlice_iff.1 hpiece
    exact hnone _ ((h.cut?_eq_some_iff hcursor).2 ⟨hgap, hpiece, rfl⟩)
  · rintro hnot ⟨gap, piece, after⟩ hsome
    exact hnot ⟨piece, ((h.cut?_eq_some_iff hcursor).1 hsome).2.1⟩

end Text

/-! ## One step -/

open Text

/-- A span that may follow a token that ends at byte `cursor`: it begins there or later, and both
its ends are boundaries, in order. -/
def Span.IsNext (cs : List Char) (cursor : Nat) (span : Span) : Prop :=
  cursor ≤ span.start ∧ span.start ≤ span.stop ∧ IsBoundary cs span.start ∧ IsBoundary cs span.stop

/-- What is wrong with a span that cannot follow a token that ends at byte `cursor`. -/
def Span.misfit (cursor : Nat) (span : Span) : SpanError :=
  if span.start < cursor then .overlap span cursor else .outside span

/-- The text up to a span and the text at it exist exactly if the span may come next. -/
theorem Span.isNext_iff_exists_isSlice {cs : List Char} {cursor : Nat} {span : Span}
    (hcursor : IsBoundary cs cursor) :
    span.IsNext cs cursor ↔ ∃ gap piece, IsSlice cs cursor span.start gap ∧
      IsSlice cs span.start span.stop piece := by
  constructor
  · rintro ⟨hprev, hle, hstart, hstop⟩
    obtain ⟨gap, hgap⟩ := exists_isSlice_iff.2 ⟨hprev, hcursor, hstart⟩
    obtain ⟨piece, hpiece⟩ := exists_isSlice_iff.2 ⟨hle, hstart, hstop⟩
    exact ⟨gap, piece, hgap, hpiece⟩
  · rintro ⟨gap, piece, hgap, hpiece⟩
    obtain ⟨hprev, -, -⟩ := exists_isSlice_iff.1 ⟨gap, hgap⟩
    exact ⟨hprev, exists_isSlice_iff.1 ⟨piece, hpiece⟩⟩

theorem Markup.prepend_append (tag? : Option Tag) (plain gap piece : List Char) (m : Markup) :
    m.prepend tag? (plain ++ gap) piece =
      ⟨plain ++ (m.prepend tag? gap piece).lead, (m.prepend tag? gap piece).spans⟩ := by
  cases tag? with
  | none => simp only [prepend, List.append_assoc]
  | some tag => rfl

namespace Table

variable {t : Table} {cs rest : List Char} {cursor : Nat} {token : Token}

theorem markupFrom_cons_of_isSlice {gap piece : List Char} (hrest : IsRest cs cursor rest)
    (hgap : IsSlice cs cursor token.span.start gap)
    (hpiece : IsSlice cs token.span.start token.span.stop piece) :
    ∃ after, IsRest cs token.span.stop after ∧ ∀ tokens,
      t.markupFrom rest cursor (token :: tokens) =
        (t.markupFrom after token.span.stop tokens).map
          (Markup.prepend (t.classify token.element) gap piece) := by
  obtain ⟨rest', rfl, hg⟩ := hrest.isSlice_iff.1 hgap
  have hpieceRest : IsRest cs token.span.start rest' := hg ▸ hrest.append
  obtain ⟨after, rfl, -⟩ := hpieceRest.isSlice_iff.1 hpiece
  have hcursor : cursor ≤ token.span.start := by omega
  refine ⟨after, hrest.after_token hgap hpiece, fun tokens => ?_⟩
  rw [markupFrom, if_neg (Nat.not_lt.2 hcursor),
    (hrest.cut?_eq_some_iff hcursor).2 ⟨hgap, hpiece, rfl⟩]
  cases h : t.markupFrom after token.span.stop tokens with
  | error e => simp only [h, Except.map]
  | ok m => simp only [h, Except.map]

theorem markupFrom_cons_of_not_isNext (hrest : IsRest cs cursor rest)
    (h : ¬token.span.IsNext cs cursor) (tokens : List Token) :
    t.markupFrom rest cursor (token :: tokens) = .error (token.span.misfit cursor) := by
  rw [markupFrom, Span.misfit]
  split_ifs with hlt
  · rfl
  · have hcursor := Nat.not_lt.1 hlt
    rw [(hrest.cut?_eq_none_iff hcursor).2 fun hin => h ⟨hcursor, hin⟩]

/-! ## The walk -/

/-- A marked-up text made of the slices of a text from byte `cursor` on: what is before each token,
the token, and what is after the last. -/
inductive Marks (t : Table) (cs : List Char) : Nat → List Token → Markup → Prop
  | nil {cursor : Nat} {rest : List Char} (hrest : IsSlice cs cursor (byteLength cs) rest) :
      Marks t cs cursor [] ⟨rest, []⟩
  | cons {cursor : Nat} {token : Token} {tokens : List Token} {gap piece : List Char} {m : Markup}
      (hgap : IsSlice cs cursor token.span.start gap)
      (hpiece : IsSlice cs token.span.start token.span.stop piece)
      (h : Marks t cs token.span.stop tokens m) :
      Marks t cs cursor (token :: tokens) (m.prepend (t.classify token.element) gap piece)

/-- Plain text in front of the rest becomes part of the plain text there. -/
theorem Marks.plain_append {start : Nat} {plain : List Char} {tokens : List Token} {m : Markup}
    (hplain : IsSlice cs start cursor plain) (h : t.Marks cs cursor tokens m) :
    t.Marks cs start tokens ⟨plain ++ m.lead, m.spans⟩ := by
  cases h with
  | nil hrest => exact .nil (hplain.append hrest)
  | cons hgap hpiece h =>
      rw [← Markup.prepend_append]
      exact .cons (hplain.append hgap) hpiece h

theorem markupFrom_eq_ok_iff {tokens : List Token} {m : Markup} (hrest : IsRest cs cursor rest) :
    t.markupFrom rest cursor tokens = .ok m ↔ t.Marks cs cursor tokens m := by
  induction tokens generalizing rest cursor m with
  | nil =>
      constructor
      · rintro ⟨⟩
        exact .nil hrest.isSlice
      · rintro (⟨h⟩ | _)
        rw [hrest.isSlice.unique h]
        rfl
  | cons token tokens ih =>
      constructor
      · intro h
        by_cases hnext : token.span.IsNext cs cursor
        · obtain ⟨gap, piece, hgap, hpiece⟩ :=
            (Span.isNext_iff_exists_isSlice hrest.isBoundary).1 hnext
          obtain ⟨after, hafter, hstep⟩ := markupFrom_cons_of_isSlice hrest hgap hpiece
          rw [hstep] at h
          cases hm : t.markupFrom after token.span.stop tokens with
          | error e =>
              rw [hm] at h
              cases h
          | ok m' =>
              rw [hm] at h
              cases h
              exact .cons hgap hpiece ((ih hafter).1 hm)
        · rw [markupFrom_cons_of_not_isNext hrest hnext] at h
          cases h
      · rintro (_ | @⟨_, _, _, gap, piece, m', hgap, hpiece, h⟩)
        obtain ⟨after, hafter, hstep⟩ := markupFrom_cons_of_isSlice hrest hgap hpiece
        rw [hstep, (ih hafter).2 h]
        rfl

theorem markup_eq_ok_iff {tokens : List Token} {m : Markup} :
    t.markup cs tokens = .ok m ↔ t.Marks cs 0 tokens m :=
  markupFrom_eq_ok_iff (isRest_zero cs)

end Table

end TokenHighlight
