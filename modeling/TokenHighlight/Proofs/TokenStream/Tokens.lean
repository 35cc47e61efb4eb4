import TokenHighlight.Proofs.TokenStream.Reading
import TokenHighlight.Proofs.Vocabulary.Resolve

/-!
# The tokens of a stream

A kind that stands for nothing becomes an unknown token and does not keep the rest of the stream
from being read: neither a code outside 32 bits nor a name that nobody knows does.  The only limit
is that of the reader, 64 bits for an integer, and beyond it the whole stream is refused
(`tokens_of_streamText`).
-/

namespace TokenHighlight

open Json

/-! ## What kinds become -/

/-- The elements that kinds become. -/
inductive KindRef.Becomes : KindRef → Element → Prop
  | code {n : Int} (h : -2147483648 ≤ n ∧ n ≤ 2147483647) : Becomes (.code n) (.token n)
  | farCode {n : Int} (h : ¬(-2147483648 ≤ n ∧ n ≤ 2147483647)) : Becomes (.code n) .unknown
  | name {s : String} {e : Element} (h : Vocabulary.builtin.resolve s = .ok e) : Becomes (.name s) e
  | unknownName {s : String} (h : ∀ e, Vocabulary.builtin.resolve s ≠ .ok e) :
      Becomes (.name s) .unknown

namespace KindRef

variable {e : Element}

theorem becomes_element (kind : KindRef) : kind.Becomes (kind.element .builtin) := by
  cases kind with
  | code n =>
      by_cases hn : Decimal.isCode n
      · rw [element, if_pos hn]
        exact .code (Decimal.isCode_iff.1 hn)
      · rw [element, if_neg hn]
        exact .farCode (Decimal.isCode_iff.not.1 hn)
  | name s =>
      cases hs : Vocabulary.builtin.resolve s with
      | ok e =>
          simp only [element, hs]
          exact .name hs
      | error cause =>
          simp only [element, hs]
          exact .unknownName fun e he => by simp [hs] at he

theorem becomes_code_iff {n : Int} : (code n).Becomes e ↔
    Decimal.isCode n ∧ e = .token n ∨ ¬Decimal.isCode n ∧ e = .unknown := by
  simp only [Decimal.isCode_iff]
  constructor
  · rintro (h | h)
    · exact Or.inl ⟨h, rfl⟩
    · exact Or.inr ⟨h, rfl⟩
  · rintro (⟨h, rfl⟩ | ⟨h, rfl⟩)
    · exact .code h
    · exact .farCode h

/-- A code and any way to write it in decimal become the same element. -/
theorem becomes_name_iff_code {s : String} {n : Int} (h : Decimal.Denotes s.toList n) :
    (name s).Becomes e ↔ (code n).Becomes e := by
  have hresolve := fun e =>
    Vocabulary.isWellNamed_builtin.resolve_eq_ok_iff_of_denotes h (e := e)
  rw [becomes_code_iff]
  constructor
  · rintro (_ | _ | hs | hs)
    · exact Or.inl ((hresolve e).1 hs)
    · refine Or.inr ⟨fun hn => hs (.token n) ((hresolve _).2 ⟨hn, rfl⟩), rfl⟩
  · rintro (hn | ⟨hn, rfl⟩)
    · exact .name ((hresolve e).2 hn)
    · exact .unknownName fun e he => hn ((hresolve e).1 he).1

end KindRef

/-! ## Streams -/

/-- The tokens of a stream, with the elements of the known kinds. -/
def TokenStream.tokens (text : String) : Except ReadError (List Token) :=
  (read text).map (List.map (StreamToken.token .builtin))

namespace TokenStream

variable {ts : List StreamToken} {text : String}

/-- One token for each one of the stream, with the same span and what its kind becomes. -/
def Corresponds (ts : List StreamToken) (tokens : List Token) : Prop :=
  List.Forall₂ (fun t token => token.span = t.span ∧ t.kind.Becomes token.element) ts tokens

theorem corresponds_map_token (ts : List StreamToken) :
    Corresponds ts (ts.map (StreamToken.token .builtin)) := by
  rw [Corresponds, List.forall₂_map_right_iff, List.forall₂_same]
  exact fun t _ => ⟨rfl, t.kind.becomes_element⟩

theorem exists_tokens_eq_error (h : StreamText ts text.toList)
    (hspans : ∀ t ∈ ts, t.span.FitsWord) (hbad : ∃ t ∈ ts, ¬t.kind.IsReadable) :
    ∃ e, tokens text = .error e := by
  obtain ⟨e, hread⟩ := exists_readAll_streamText_eq_error h hspans hbad
  refine ⟨e, ?_⟩
  rw [tokens, read, hread]
  rfl

/-- A stream is read token by token, whatever its kinds, unless one of them is an integer that does
not fit into 64 bits with a sign.  A decimal name is as good as its code. -/
theorem tokens_of_streamText (h : StreamText ts text.toList)
    (hspans : ∀ t ∈ ts, t.span.FitsWord) :
    ((∀ t ∈ ts, t.kind.IsReadable) →
      ∃ tokens, TokenStream.tokens text = .ok tokens ∧ Corresponds ts tokens) ∧
    ((∃ t ∈ ts, ¬t.kind.IsReadable) → ∃ e, TokenStream.tokens text = .error e) ∧
    ∀ n e, (KindRef.name (String.ofList (Decimal.ofInt n))).Becomes e ↔
      (KindRef.code n).Becomes e := by
  refine ⟨fun hkinds => ?_, exists_tokens_eq_error h hspans, fun n e => ?_⟩
  · have hread := readAll_streamText h fun t ht => ⟨hkinds t ht, hspans t ht⟩
    refine ⟨_, ?_, corresponds_map_token ts⟩
    rw [tokens, read, hread]
    rfl
  · refine KindRef.becomes_name_iff_code ?_
    rw [String.toList_ofList, ← Decimal.toInt?_eq_some_iff]
    exact Decimal.toInt?_ofInt n

/-- A stream with codes and names of all sorts. -/
def mixed : List StreamToken :=
  [⟨.code 2147483647, ⟨0, 4⟩⟩, ⟨.code 2147483648, ⟨4, 5⟩⟩, ⟨.code (-9223372036854775808), ⟨5, 5⟩⟩,
    ⟨.name "PLUS", ⟨6, 7⟩⟩, ⟨.name "-1", ⟨7, 8⟩⟩, ⟨.name "query", ⟨9, 18446744073709551615⟩⟩,
    ⟨.name "\"no\\such\nname", ⟨3, 1⟩⟩]

theorem tokens_of_streamText_mixed :
    StreamText mixed (pretty (.list (mixed.map StreamToken.toData))).toList ∧
      (∀ t ∈ mixed, t.span.FitsWord) ∧ (∀ t ∈ mixed, t.kind.IsReadable) ∧
      ∃ tokens, TokenStream.tokens (pretty (.list (mixed.map StreamToken.toData))) = .ok tokens ∧
        Corresponds mixed tokens := by
  have htext := streamText_pretty mixed
  have hspans : ∀ t ∈ mixed, t.span.FitsWord := by simp [mixed, Span.FitsWord, maxWord]
  have hkinds : ∀ t ∈ mixed, t.kind.IsReadable := by simp [mixed, KindRef.IsReadable]
  exact ⟨htext, hspans, hkinds, (tokens_of_streamText htext hspans).1 hkinds⟩

/-- A stream with the least code that is too large for the reader. -/
def large : List StreamToken := [⟨.code 9223372036854775808, ⟨0, 4⟩⟩]

theorem tokens_large :
    StreamText large (pretty (.list (large.map StreamToken.toData))).toList ∧
      (∀ t ∈ large, t.span.FitsWord) ∧
      TokenStream.tokens (pretty (.list (large.map StreamToken.toData))) = .error .noVariant := by
  refine ⟨streamText_pretty large, ?_, by decide +kernel⟩
  simp [large, Span.FitsWord, maxWord]

end TokenStream

end TokenHighlight
