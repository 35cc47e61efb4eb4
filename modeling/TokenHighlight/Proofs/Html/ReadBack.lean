import Mathlib.Data.List.Forall2
import TokenHighlight.Proofs.Html.Grammar
import TokenHighlight.Proofs.Html.Markup

/-!
# Reading highlighted text back

The HTML form of a text determines the text, the parts of it that are highlighted and how.  What
tokens ask for is the subject of `Table.Marks`; here it is restated for the highlighted parts
(`Marks.highlighted`), the plain parts (`Marks.plain`) and the whole text (`Marks.text`), and
`highlightHtml_readBack` adds that the form stands for nothing else.
-/

namespace TokenHighlight

open Text

/-- The ranges before, between and after spans, from byte `cursor` to byte `size`. -/
def Span.gaps (size : Nat) : Nat → List Span → List Span
  | cursor, [] => [⟨cursor, size⟩]
  | cursor, s :: spans => ⟨cursor, s.start⟩ :: gaps size s.stop spans

/-- Where the first range starts has no influence on the others. -/
theorem Span.exists_gaps_eq (size : Nat) (spans : List Span) :
    ∃ stop rest, ∀ cursor, Span.gaps size cursor spans = ⟨cursor, stop⟩ :: rest := by
  cases spans with
  | nil => exact ⟨size, [], fun _ => rfl⟩
  | cons s spans => exact ⟨s.start, Span.gaps size s.stop spans, fun _ => rfl⟩

/-- The plain parts of a marked-up text, in order. -/
def Markup.plain (m : Markup) : List (List Char) := m.lead :: m.spans.map (·.trail)

/-- The tokens with a tag. -/
def Table.tagged (t : Table) (tokens : List Token) : List Token :=
  tokens.filter fun token => !(t.tagsOf token.element).isEmpty

namespace Table

variable {t : Table} {cs : List Char}

theorem tagged_cons_of_classify_none {token : Token} (tokens : List Token)
    (h : t.classify token.element = none) : t.tagged (token :: tokens) = t.tagged tokens := by
  simp [tagged, tagsOf, h]

theorem tagged_cons_of_classify_some {token : Token} (tokens : List Token) {tag : Tag}
    (h : t.classify token.element = some tag) :
    t.tagged (token :: tokens) = token :: t.tagged tokens := by
  simp [tagged, tagsOf, h]

/-! ## The parts of a marked-up text -/

/-- A highlighted part has the tag of its token and the text at the span of its token. -/
def Highlights (t : Table) (cs : List Char) (s : MarkedSpan) (token : Token) : Prop :=
  t.tagsOf token.element = [s.tag] ∧ IsSlice cs token.span.start token.span.stop s.content

theorem Marks.highlighted {cursor : Nat} {tokens : List Token} {m : Markup}
    (h : t.Marks cs cursor tokens m) : List.Forall₂ (t.Highlights cs) m.spans (t.tagged tokens) := by
  induction h with
  | nil _ => exact .nil
  | @cons _ token tokens gap piece m _ hpiece _ ih =>
      cases htag : t.classify token.element with
      | none =>
          rw [tagged_cons_of_classify_none tokens htag]
          exact ih
      | some tag =>
          rw [tagged_cons_of_classify_some tokens htag]
          exact .cons ⟨by simp [tagsOf, htag], hpiece⟩ ih

theorem Marks.plain {cursor : Nat} {tokens : List Token} {m : Markup}
    (h : t.Marks cs cursor tokens m) :
    List.Forall₂ (fun part gap => IsSlice cs gap.start gap.stop part) m.plain
      (Span.gaps (byteLength cs) cursor ((t.tagged tokens).map (·.span))) := by
  induction h with
  | nil hrest => exact .cons hrest .nil
  | @cons _ token tokens gap piece m hgap hpiece _ ih =>
      cases htag : t.classify token.element with
      | none =>
          -- the token is plain text as well, and makes one part with the text around it
          obtain ⟨stop, rest, hgaps⟩ :=
            Span.exists_gaps_eq (byteLength cs) ((t.tagged tokens).map (·.span))
          rw [tagged_cons_of_classify_none tokens htag, hgaps]
          rw [hgaps] at ih
          cases ih with
          | cons hlead hrest => exact .cons (hgap.append (hpiece.append hlead)) hrest
      | some tag =>
          rw [tagged_cons_of_classify_some tokens htag]
          exact .cons hgap ih

theorem Marks.text {cursor : Nat} {tokens : List Token} {m : Markup}
    (h : t.Marks cs cursor tokens m) : IsSlice cs cursor (byteLength cs) m.text := by
  induction h with
  | nil hrest => simpa [Markup.text] using hrest
  | @cons _ token tokens gap piece m hgap hpiece _ ih =>
      have hall := hgap.append (hpiece.append ih)
      cases htag : t.classify token.element with
      | none => simpa [Markup.prepend, Markup.text] using hall
      | some tag => simpa [Markup.prepend, Markup.text] using hall

end Table

/-! ## Markup in the output -/

namespace Html

theorem Encodes.angle_not_mem {c : Char} (hc : c ∈ ['<', '>']) {html text : List Char}
    (h : Encodes html text) : c ∉ html := by
  induction h with
  | nil => exact List.not_mem_nil
  | @char d _ _ hd _ ih =>
      have hreserved : c ∈ reserved := by
        simp only [List.mem_cons, List.not_mem_nil, or_false] at hc
        rcases hc with rfl | rfl <;> decide
      rw [List.mem_cons, not_or]
      exact ⟨fun h => hd (h ▸ hreserved), ih⟩
  | @entity e _ _ d he _ ih =>
      have hentity : c ∉ e := by
        simp only [List.mem_cons, List.not_mem_nil, or_false] at hc
        simp only [entities, List.mem_cons, List.not_mem_nil, or_false, Prod.mk.injEq] at he
        rcases hc with rfl | rfl <;>
          rcases he with ⟨rfl, -⟩ | ⟨rfl, -⟩ | ⟨rfl, -⟩ | ⟨rfl, -⟩ | ⟨rfl, -⟩ <;> decide
      rw [List.mem_append, not_or]
      exact ⟨hentity, ih⟩

theorem count_escape_of_mem {c : Char} (hc : c ∈ ['<', '>']) (text : List Char) :
    (escape text).count c = 0 :=
  List.count_eq_zero.2 ((encodes_escape text).angle_not_mem hc)

theorem count_span_of_mem {c : Char} (hc : c ∈ ['<', '>']) (s : MarkedSpan) :
    (span s).count c = 2 := by
  have htags : (openSpan ++ s.tag.cssClass.toList ++ openSpanEnd).count c + closeSpan.count c = 2 := by
    simp only [List.mem_cons, List.not_mem_nil, or_false] at hc
    rcases hc with rfl | rfl <;> cases s.tag <;> decide
  simp only [span, List.count_append, count_escape_of_mem hc, Nat.add_zero] at htags ⊢
  exact htags

/-- The angle brackets of a document are those of its tags. -/
theorem count_html_of_mem {c : Char} (hc : c ∈ ['<', '>']) (m : Markup) :
    m.html.count c = 2 * m.spans.length + 2 := by
  have hspans : (m.spans.flatMap span).count c = 2 * m.spans.length := by
    induction m.spans with
    | nil => rfl
    | cons s spans ih =>
        rw [List.flatMap_cons, List.count_append, ih, count_span_of_mem hc, List.length_cons]
        omega
  have hends : openCode.count c + closeCode.count c = 2 := by
    simp only [List.mem_cons, List.not_mem_nil, or_false] at hc
    rcases hc with rfl | rfl <;> decide
  simp only [Markup.html, List.count_append, count_escape_of_mem hc, hspans]
  omega

end Html

/-! ## Reading back -/

open Html

theorem highlightHtml_eq_ok_iff {t : Table} {text html : String} {tokens : List Token} :
    t.highlightHtml text tokens = .ok html ↔
      ∃ m, t.Marks text.toList 0 tokens m ∧ html = String.ofList m.html := by
  rw [Table.highlightHtml]
  constructor
  · intro h
    cases hm : t.markup text.toList tokens with
    | error e =>
        rw [hm] at h
        cases h
    | ok m =>
        rw [hm] at h
        cases h
        exact ⟨m, Table.markup_eq_ok_iff.1 hm, rfl⟩
  · rintro ⟨m, hm, rfl⟩
    rw [Table.markup_eq_ok_iff.2 hm]
    rfl

/-- The HTML form of a text is a sentence of the grammar, and what the sentence stands for is the
text, with the tagged tokens highlighted and all else plain.  All angle brackets belong to tags of
the grammar, so no text brings markup of its own. -/
theorem highlightHtml_readBack (t : Table) (text : String) (tokens : List Token) (html : String)
    (h : t.highlightHtml text tokens = .ok html) :
    ∃ m : Markup, Markup.ofHtml? html.toList = some m ∧
      (∀ m' : Markup, DocumentOf html.toList m' ↔ m' = m) ∧
      List.Forall₂ (t.Highlights text.toList) m.spans (t.tagged tokens) ∧
      List.Forall₂ (fun part gap => IsSlice text.toList gap.start gap.stop part) m.plain
        (Span.gaps text.utf8ByteSize 0 ((t.tagged tokens).map (·.span))) ∧
      m.text = text.toList ∧
      ∀ c ∈ ['<', '>'], html.toList.count c = 2 * (t.tagged tokens).length + 2 := by
  obtain ⟨m, hm, rfl⟩ := highlightHtml_eq_ok_iff.1 h
  have hread : Markup.ofHtml? m.html = some m := ofHtml?_html m
  have hplain := hm.plain
  rw [byteLength_toList] at hplain
  rw [String.toList_ofList]
  refine ⟨m, hread, fun m' => ?_, hm.highlighted, hplain, ?_, fun c hc => ?_⟩
  · rw [← ofHtml?_eq_some_iff, hread, Option.some.injEq, eq_comm]
  · exact hm.text.unique (isRest_zero _).isSlice
  · rw [count_html_of_mem hc, hm.highlighted.length_eq]

/-- Markup in the text comes out as text, and a span may be empty. -/
theorem highlightHtml_readBack_markup :
    ∃ html m, Table.standard.highlightHtml "é<b>" [⟨.rule 3, ⟨0, 2⟩⟩, ⟨.ofKind .ident, ⟨2, 2⟩⟩,
        ⟨.ofKind .quotedString, ⟨2, 5⟩⟩] = .ok html ∧
      Markup.ofHtml? html.toList = some m ∧ m.spans.length = 2 ∧ m.text = "é<b>".toList := by
  have hhtml : Table.standard.highlightHtml "é<b>" [⟨.rule 3, ⟨0, 2⟩⟩, ⟨.ofKind .ident, ⟨2, 2⟩⟩,
      ⟨.ofKind .quotedString, ⟨2, 5⟩⟩] = .ok ("<code>é<span class=\"sql-id\"></span>" ++
        "<span class=\"sql-str\">&lt;b&gt;</span></code>") := by decide +kernel
  obtain ⟨m, hread, -, hspans, -, htext, -⟩ := highlightHtml_readBack _ _ _ _ hhtml
  exact ⟨_, m, hhtml, hread, hspans.length_eq, htext⟩

end TokenHighlight
