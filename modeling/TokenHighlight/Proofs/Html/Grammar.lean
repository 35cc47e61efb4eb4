import Mathlib.Tactic.SplitIfs
import TokenHighlight.Html.Document

/-!
# The grammar of HTML documents

`Html.Encodes`, `Html.SpansOf` and `Html.DocumentOf` are the grammar of the documents, each sentence
together with what it stands for.  The reader of documents accepts exactly the sentences of the
grammar (`ofHtml?_eq_some_iff`), so no sentence stands for two marked-up texts, and reads back what
the writer produces (`ofHtml?_html`).
-/

namespace TokenHighlight

namespace Html

/-- The entities and the characters that they stand for. -/
def entities : List (List Char × Char) :=
  [("&lt;".toList, '<'), ("&gt;".toList, '>'), ("&amp;".toList, '&'), ("&#39;".toList, '\x27'),
    ("&quot;".toList, '"')]

/-- The characters that plain text has no place for; they are written as entities. -/
def reserved : List Char := ['<', '>', '&', '\x27', '"']

/-- Characters that are not reserved, and entities, with the text that they stand for. -/
inductive Encodes : List Char → List Char → Prop
  | nil : Encodes [] []
  | char {c : Char} {html text : List Char} (hc : c ∉ reserved) (h : Encodes html text) :
      Encodes (c :: html) (c :: text)
  | entity {e html text : List Char} {c : Char} (he : (e, c) ∈ entities) (h : Encodes html text) :
      Encodes (e ++ html) (c :: text)

/-- Spans with the class of a tag, each followed by plain text. -/
inductive SpansOf : List Char → List MarkedSpan → Prop
  | nil : SpansOf [] []
  | cons {inside trail html : List Char} {s : MarkedSpan} {spans : List MarkedSpan}
      (hinside : Encodes inside s.content) (htrail : Encodes trail s.trail)
      (h : SpansOf html spans) :
      SpansOf ("<span class=\"".toList ++ (s.tag.cssClass.toList ++ ("\">".toList ++
        (inside ++ ("</span>".toList ++ (trail ++ html)))))) (s :: spans)

/-- A `code` element with plain text and then spans. -/
inductive DocumentOf : List Char → Markup → Prop
  | intro {lead html : List Char} {m : Markup} (hlead : Encodes lead m.lead)
      (h : SpansOf html m.spans) :
      DocumentOf ("<code>".toList ++ (lead ++ (html ++ "</code>".toList))) m

/-! ## Plain text -/

/-- Nothing is left, or a tag begins. -/
def AtTag (rest : List Char) : Prop := ∀ c ∈ rest.head?, c = '<'

theorem readText?_of_atTag {rest : List Char} (h : AtTag rest) :
    readText? rest = some ([], rest) := by
  cases rest with
  | nil => rfl
  | cons c cs =>
      obtain rfl : c = '<' := h c rfl
      rfl

theorem escapeChar_of_not_reserved {c : Char} (hc : c ∉ reserved) : escapeChar c = [c] := by
  simp only [reserved, List.mem_cons, List.not_mem_nil, or_false, not_or] at hc
  simp only [escapeChar, hc, if_false]

theorem escapeChar_of_mem_entities {e : List Char} {c : Char} (he : (e, c) ∈ entities) :
    escapeChar c = e := by
  simp only [entities, List.mem_cons, List.not_mem_nil, or_false, Prod.mk.injEq] at he
  rcases he with ⟨rfl, rfl⟩ | ⟨rfl, rfl⟩ | ⟨rfl, rfl⟩ | ⟨rfl, rfl⟩ | ⟨rfl, rfl⟩ <;> decide

/-- A text has one form only. -/
theorem Encodes.eq_escape {html text : List Char} (h : Encodes html text) : html = escape text := by
  induction h with
  | nil => rfl
  | char hc _ ih => rw [escape_cons, escapeChar_of_not_reserved hc, ← ih, List.singleton_append]
  | entity he _ ih => rw [escape_cons, escapeChar_of_mem_entities he, ← ih]

theorem encodes_escape (text : List Char) : Encodes (escape text) text := by
  induction text with
  | nil => exact .nil
  | cons c text ih =>
      rw [escape_cons]
      by_cases hc : c ∈ reserved
      · have he : (escapeChar c, c) ∈ entities := by
          simp only [reserved, List.mem_cons, List.not_mem_nil, or_false] at hc
          rcases hc with rfl | rfl | rfl | rfl | rfl <;> decide
        exact .entity he ih
      · rw [escapeChar_of_not_reserved hc]
        exact .char hc ih

theorem exists_encodes_cons (e : List Char) {c : Char} {cs text rest : List Char}
    (he : ∀ {html text : List Char}, Encodes html text → Encodes (e ++ html) (c :: text))
    (h : ((readText? cs).map fun (text, rest) => (c :: text, rest)) = some (text, rest))
    (ih : ∀ {text rest : List Char}, readText? cs = some (text, rest) →
      ∃ html, cs = html ++ rest ∧ Encodes html text ∧ AtTag rest) :
    ∃ html, e ++ cs = html ++ rest ∧ Encodes html text ∧ AtTag rest := by
  obtain ⟨⟨text', rest'⟩, h', heq⟩ := Option.map_eq_some_iff.1 h
  obtain ⟨rfl, rfl⟩ := Prod.mk.inj heq
  obtain ⟨html, rfl, henc, htag⟩ := ih h'
  exact ⟨e ++ html, (List.append_assoc _ _ _).symm, he henc, htag⟩

/-- What is read up to a tag stands at the start of the input. -/
theorem encodes_of_readText? {cs text rest : List Char} (h : readText? cs = some (text, rest)) :
    ∃ html, cs = html ++ rest ∧ Encodes html text ∧ AtTag rest := by
  fun_induction readText? cs generalizing text rest with
  | case1 =>
      cases h
      exact ⟨[], rfl, .nil, by simp [AtTag]⟩
  | case2 cs =>
      cases h
      exact ⟨[], rfl, .nil, by simp [AtTag]⟩
  | case3 cs ih => exact exists_encodes_cons ['&', 'l', 't', ';'] (.entity (by decide)) h ih
  | case4 cs ih => exact exists_encodes_cons ['&', 'g', 't', ';'] (.entity (by decide)) h ih
  | case5 cs ih => exact exists_encodes_cons ['&', 'a', 'm', 'p', ';'] (.entity (by decide)) h ih
  | case6 cs ih => exact exists_encodes_cons ['&', '#', '3', '9', ';'] (.entity (by decide)) h ih
  | case7 cs ih => exact exists_encodes_cons ['&', 'q', 'u', 'o', 't', ';'] (.entity (by decide)) h ih
  | case8 c cs => cases h
  | case9 c cs hlt _ _ _ _ _ hc ih =>
      have hres : c ∉ reserved := by
        simp only [reserved, List.mem_cons, List.not_mem_nil, or_false, not_or] at hc ⊢
        exact ⟨hlt, hc⟩
      exact exists_encodes_cons [c] (.char hres) h ih

theorem readText?_eq_some_iff {cs text rest : List Char} :
    readText? cs = some (text, rest) ↔ ∃ html, cs = html ++ rest ∧ Encodes html text ∧ AtTag rest := by
  constructor
  · exact encodes_of_readText?
  · rintro ⟨html, rfl, henc, htag⟩
    rw [henc.eq_escape]
    exact readText?_escape text (readText?_of_atTag htag)

/-! ## Tags -/

theorem after?_eq_some_iff {ps cs rest : List Char} : after? ps cs = some rest ↔ cs = ps ++ rest := by
  constructor
  · intro h
    induction ps generalizing cs with
    | nil => simpa [after?] using h
    | cons p ps ih =>
        cases cs with
        | nil => cases h
        | cons c cs =>
            simp only [after?] at h
            split_ifs at h with hc
            rw [ih h, hc, List.cons_append]
  · rintro rfl
    exact after?_append ps rest

theorem quote_not_mem_cssClass (tag : Tag) : '"' ∉ tag.cssClass.toList := by
  cases tag <;> decide

theorem readClass?_cssClass (tag : Tag) (rest : List Char) :
    readClass? (tag.cssClass.toList ++ '"' :: rest) = some (tag, '"' :: rest) := by
  have hne : ∀ c ∈ tag.cssClass.toList, (c != '"') = true := by
    intro c hc
    rw [bne_iff_ne]
    rintro rfl
    exact quote_not_mem_cssClass tag hc
  unfold readClass?
  rw [List.takeWhile_append_of_pos hne, List.dropWhile_append_of_pos hne]
  simp [Tag.ofCssClass?_cssClass]

theorem eq_of_readClass? {cs rest : List Char} {tag : Tag} (h : readClass? cs = some (tag, rest)) :
    cs = tag.cssClass.toList ++ rest := by
  unfold readClass? at h
  split at h
  · cases h
  · rename_i tag' htag
    obtain ⟨rfl, rfl⟩ := Prod.mk.inj (Option.some.inj h)
    have hclass : tag'.cssClass = String.ofList (cs.takeWhile (· != '"')) := by
      simpa using List.find?_some htag
    rw [hclass, String.toList_ofList, List.takeWhile_append_dropWhile]

/-! ## Spans -/

theorem openSpan_eq_cons : openSpan = '<' :: 's' :: openSpan.drop 2 := rfl

theorem closeSpan_eq_cons : closeSpan = '<' :: closeSpan.drop 1 := rfl

theorem closeCode_eq_cons : closeCode = '<' :: '/' :: closeCode.drop 2 := rfl

theorem atTag_cons (cs : List Char) : AtTag ('<' :: cs) := by
  intro c hc
  exact (Option.some.inj hc).symm

/-- The form of a span, to the right of which more may follow. -/
theorem span_append (s : MarkedSpan) (rest : List Char) :
    span s ++ rest = openSpan ++ (s.tag.cssClass.toList ++ (openSpanEnd ++
      (escape s.content ++ (closeSpan ++ (escape s.trail ++ rest))))) := by
  simp only [span, List.append_assoc]

theorem SpansOf.eq_flatMap {html : List Char} {spans : List MarkedSpan} (h : SpansOf html spans) :
    html = spans.flatMap span := by
  induction h with
  | nil => rfl
  | cons hinside htrail _ ih =>
      rw [List.flatMap_cons, span_append, ← ih, ← hinside.eq_escape, ← htrail.eq_escape]
      rfl

theorem spansOf_flatMap (spans : List MarkedSpan) : SpansOf (spans.flatMap span) spans := by
  induction spans with
  | nil => exact .nil
  | cons s spans ih =>
      rw [List.flatMap_cons, span_append]
      exact .cons (encodes_escape _) (encodes_escape _) ih

/-- After the plain text behind a span comes the next span or the end of the element. -/
theorem atTag_flatMap_append (spans : List MarkedSpan) : AtTag (spans.flatMap span ++ closeCode) := by
  cases spans with
  | nil =>
      rw [List.flatMap_nil, List.nil_append, closeCode_eq_cons]
      exact atTag_cons _
  | cons s spans =>
      rw [List.flatMap_cons, List.append_assoc, span_append, openSpan_eq_cons]
      exact atTag_cons _

theorem readSpan?_span (s : MarkedSpan) {rest : List Char} (h : AtTag rest) :
    readSpan? (span s ++ rest) = some (s, rest) := by
  have hclose : AtTag (closeSpan ++ (escape s.trail ++ rest)) := by
    rw [closeSpan_eq_cons]
    exact atTag_cons _
  have hcontent := readText?_eq_some_iff.2 ⟨_, rfl, encodes_escape s.content, hclose⟩
  have htrail := readText?_eq_some_iff.2 ⟨_, rfl, encodes_escape s.trail, h⟩
  have hclass : readClass? (s.tag.cssClass.toList ++ (openSpanEnd ++ (escape s.content ++
      (closeSpan ++ (escape s.trail ++ rest))))) = some (s.tag, openSpanEnd ++ (escape s.content ++
      (closeSpan ++ (escape s.trail ++ rest)))) := readClass?_cssClass s.tag _
  rw [span_append]
  simp only [readSpan?, after?_append, hclass, hcontent, htrail, Option.bind_eq_bind,
    Option.bind_some, Option.pure_def]

theorem eq_of_readSpan? {cs rest : List Char} {s : MarkedSpan} (h : readSpan? cs = some (s, rest)) :
    cs = span s ++ rest := by
  simp only [readSpan?, Option.bind_eq_bind, Option.bind_eq_some_iff, Option.pure_def,
    Prod.exists, after?_eq_some_iff] at h
  obtain ⟨a, rfl, tag, b, hclass, c, rfl, content, d, hcontent, e, rfl, trail, f, htrail, heq⟩ := h
  obtain ⟨rfl, rfl⟩ := Prod.mk.inj (Option.some.inj heq)
  obtain ⟨inside, rfl, hinside, -⟩ := encodes_of_readText? hcontent
  obtain ⟨after, rfl, hafter, -⟩ := encodes_of_readText? htrail
  rw [eq_of_readClass? hclass, hinside.eq_escape, hafter.eq_escape, span_append]

theorem span_append_ne_closeCode (s : MarkedSpan) (rest : List Char) :
    span s ++ rest ≠ closeCode := by
  rw [span_append, openSpan_eq_cons, closeCode_eq_cons]
  intro h
  have hsecond : 's' = '/' := (List.cons.inj (List.cons.inj h).2).1
  exact absurd hsecond (by decide)

theorem readSpans?_flatMap (spans : List MarkedSpan) {fuel : Nat} (hfuel : spans.length ≤ fuel) :
    readSpans? fuel (spans.flatMap span ++ closeCode) = some spans := by
  induction spans generalizing fuel with
  | nil => cases fuel <;> simp [readSpans?]
  | cons s spans ih =>
      obtain ⟨fuel, rfl⟩ : ∃ n, fuel = n + 1 := ⟨fuel - 1, by simp at hfuel; omega⟩
      have hlen : spans.length ≤ fuel := by simpa using hfuel
      rw [List.flatMap_cons, List.append_assoc, readSpans?,
        if_neg (span_append_ne_closeCode s _), readSpan?_span s (atTag_flatMap_append spans)]
      simp [ih hlen]

theorem length_le_length_flatMap_append (spans : List MarkedSpan) (rest : List Char) :
    spans.length ≤ (spans.flatMap span ++ rest).length := by
  induction spans with
  | nil => exact Nat.zero_le _
  | cons s spans ih =>
      rw [List.flatMap_cons, List.append_assoc, span_append, openSpan_eq_cons]
      simp only [List.length_cons, List.length_append] at ih ⊢
      omega

theorem eq_of_readSpans? {fuel : Nat} {cs : List Char} {spans : List MarkedSpan}
    (h : readSpans? fuel cs = some spans) : cs = spans.flatMap span ++ closeCode := by
  induction fuel generalizing cs spans with
  | zero =>
      simp only [readSpans?] at h
      split_ifs at h with hcs
      cases h
      simpa using hcs
  | succ fuel ih =>
      simp only [readSpans?] at h
      split_ifs at h with hcs
      · cases h
        simpa using hcs
      · split at h
        · cases h
        · rename_i s rest hs
          obtain ⟨spans', h', rfl⟩ := Option.map_eq_some_iff.1 h
          rw [eq_of_readSpan? hs, ih h', List.flatMap_cons, List.append_assoc]

end Html

/-! ## Documents -/

open Html

/-- What is inside the element. -/
def Markup.body (m : Markup) : List Char := escape m.lead ++ m.spans.flatMap Html.span

theorem Markup.html_eq_body (m : Markup) : m.html = openCode ++ (m.body ++ closeCode) := by
  simp only [html, body, List.append_assoc]

theorem html_eq_append (m : Markup) :
    m.html = openCode ++ (escape m.lead ++ (m.spans.flatMap Html.span ++ closeCode)) := by
  rw [m.html_eq_body, Markup.body, List.append_assoc]

theorem Html.DocumentOf.eq_html {cs : List Char} {m : Markup} (h : DocumentOf cs m) :
    cs = m.html := by
  cases h with
  | intro hlead h =>
      rw [html_eq_append, hlead.eq_escape, h.eq_flatMap]
      rfl

theorem ofHtml?_html (m : Markup) : Markup.ofHtml? m.html = some m := by
  have hlead := readText?_eq_some_iff.2
    ⟨_, rfl, encodes_escape m.lead, atTag_flatMap_append m.spans⟩
  have hfuel := length_le_length_flatMap_append m.spans closeCode
  rw [html_eq_append]
  simp only [Markup.ofHtml?, after?_append, hlead, readSpans?_flatMap m.spans hfuel,
    Option.bind_eq_bind, Option.bind_some, Option.pure_def]

/-- The reader accepts exactly the sentences of the grammar, and reads what they stand for. -/
theorem ofHtml?_eq_some_iff {cs : List Char} {m : Markup} :
    Markup.ofHtml? cs = some m ↔ DocumentOf cs m := by
  constructor
  · intro h
    simp only [Markup.ofHtml?, Option.bind_eq_bind, Option.bind_eq_some_iff, Option.pure_def,
      Prod.exists, after?_eq_some_iff] at h
    obtain ⟨a, rfl, lead, b, hlead, spans, hspans, heq⟩ := h
    obtain rfl := Option.some.inj heq
    obtain ⟨html, rfl, henc, -⟩ := encodes_of_readText? hlead
    rw [eq_of_readSpans? hspans]
    exact .intro henc (spansOf_flatMap spans)
  · intro h
    rw [h.eq_html]
    exact ofHtml?_html m

end TokenHighlight
