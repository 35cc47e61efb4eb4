import TokenHighlight.Proofs.Json.Text
import TokenHighlight.TokenStream

/-!
# The texts of token streams

`StreamText ts` is the grammar of the texts that stand for the tokens `ts`: a JSON sequence of
objects with the fields `kind` and `span` in either order, blanks between any two parts, strings
spelled in any way and integers of any size in their canonical decimal form.  Every list of tokens
has such a text, for the printer writes one (`streamText_pretty`).
-/

namespace TokenHighlight

open Json

/-! ## The grammar -/

/-- A text of a part with blanks around it. -/
inductive Padded (part : List Char → Prop) : List Char → Prop
  | intro {before core after : List Char} (hbefore : IsBlanks before) (hcore : part core)
      (hafter : IsBlanks after) : Padded part (before ++ (core ++ after))

/-- The texts of a string. -/
inductive StringText (s : String) : List Char → Prop
  | intro {cs : List Char} (h : Spells cs s.toList) : StringText s ('"' :: (cs ++ ['"']))

/-- The texts of a kind. -/
inductive KindText : KindRef → List Char → Prop
  | code (n : Int) : KindText (.code n) (Decimal.ofInt n)
  | name {s : String} {cs : List Char} (h : StringText s cs) : KindText (.name s) cs

/-- The texts of a span: its two offsets in a sequence. -/
inductive SpanText (span : Span) : List Char → Prop
  | intro {cs ds : List Char} (hstart : Padded (· = Decimal.ofNat span.start) cs)
      (hstop : Padded (· = Decimal.ofNat span.stop) ds) :
      SpanText span ('[' :: (cs ++ ',' :: (ds ++ [']'])))

/-- The texts of a field with a given key. -/
inductive FieldText (key : String) (part : List Char → Prop) : List Char → Prop
  | intro {cs ds : List Char} (hkey : Padded (StringText key) cs) (hvalue : Padded part ds) :
      FieldText key part (cs ++ ':' :: ds)

/-- The texts of a token: its two fields in an object. -/
inductive TokenText (t : StreamToken) : List Char → Prop
  | kindFirst {cs ds : List Char} (hkind : FieldText "kind" (KindText t.kind) cs)
      (hspan : FieldText "span" (SpanText t.span) ds) :
      TokenText t ('\x7b' :: (cs ++ ',' :: (ds ++ ['\x7d'])))
  | spanFirst {cs ds : List Char} (hspan : FieldText "span" (SpanText t.span) cs)
      (hkind : FieldText "kind" (KindText t.kind) ds) :
      TokenText t ('\x7b' :: (cs ++ ',' :: (ds ++ ['\x7d'])))

/-- The texts of some tokens with commas between them. -/
inductive ItemsText : List StreamToken → List Char → Prop
  | one {t : StreamToken} {cs : List Char} (h : Padded (TokenText t) cs) : ItemsText [t] cs
  | cons {t : StreamToken} {ts : List StreamToken} {cs ds : List Char}
      (h : Padded (TokenText t) cs) (hs : ItemsText ts ds) : ItemsText (t :: ts) (cs ++ ',' :: ds)

/-- The texts of a sequence of tokens. -/
inductive SequenceText : List StreamToken → List Char → Prop
  | empty {ws : List Char} (h : IsBlanks ws) : SequenceText [] ('[' :: (ws ++ [']']))
  | items {ts : List StreamToken} {cs : List Char} (h : ItemsText ts cs) :
      SequenceText ts ('[' :: (cs ++ [']']))

/-- The texts of a token stream. -/
def StreamText (ts : List StreamToken) : List Char → Prop := Padded (SequenceText ts)

theorem TokenText.exists_eq_cons {t : StreamToken} {cs : List Char} (h : TokenText t cs) :
    ∃ ds, cs = '\x7b' :: ds := by
  cases h <;> exact ⟨_, rfl⟩

theorem SequenceText.exists_eq_cons {ts : List StreamToken} {cs : List Char}
    (h : SequenceText ts cs) : ∃ ds, cs = '[' :: ds := by
  cases h <;> exact ⟨_, rfl⟩

/-! ## The printer -/

/-- A kind as data. -/
def KindRef.toData : KindRef → Data
  | code n => .int n
  | name s => .text s

/-- A token as data. -/
def StreamToken.toData (t : StreamToken) : Data :=
  .record
    [("kind", t.kind.toData), ("span", .list [.int t.span.start, .int t.span.stop])]

theorem kindText_prettyAt (kind : KindRef) (depth : Nat) :
    KindText kind (prettyAt depth kind.toData) := by
  cases kind with
  | code n =>
      rw [KindRef.toData, prettyAt]
      exact .code n
  | name s =>
      rw [KindRef.toData, prettyAt]
      exact .name (.intro (spells_flatMap_escape s.toList))

theorem ofInt_natCast (n : Nat) : Decimal.ofInt n = Decimal.ofNat n := rfl

theorem spanText_prettyAt (span : Span) (depth : Nat) :
    SpanText span (prettyAt depth (.list [.int span.start, .int span.stop])) := by
  have hstart : Padded (· = Decimal.ofNat span.start) _ :=
    .intro (isBlanks_newline (depth + 1)) rfl isBlanks_nil
  have hstop : Padded (· = Decimal.ofNat span.stop) _ :=
    .intro (isBlanks_newline (depth + 1)) rfl (isBlanks_newline depth)
  have hspan := SpanText.intro hstart hstop
  simpa [prettyAt, prettyItems, ofInt_natCast] using hspan

theorem fieldText_prettyField {part : List Char → Prop} (key : String) {x : Data} {depth : Nat}
    {ws : List Char} (hx : part (prettyAt depth x)) (hws : IsBlanks ws) :
    FieldText key part (newline depth ++ (prettyField depth (key, x) ++ ws)) := by
  have hkey : Padded (StringText key) _ :=
    .intro (isBlanks_newline depth) (.intro (spells_flatMap_escape key.toList)) isBlanks_nil
  have hvalue : Padded part _ := .intro isBlanks_space hx hws
  have hfield := FieldText.intro hkey hvalue
  simpa [prettyField, quote] using hfield

theorem tokenText_prettyAt (t : StreamToken) (depth : Nat) :
    TokenText t (prettyAt depth t.toData) := by
  have hkind := fieldText_prettyField "kind" (kindText_prettyAt t.kind (depth + 1))
    isBlanks_nil
  have hspan := fieldText_prettyField "span" (spanText_prettyAt t.span (depth + 1))
    (isBlanks_newline depth)
  have htoken := TokenText.kindFirst hkind hspan
  simpa [StreamToken.toData, prettyAt, prettyFields] using htoken

theorem itemsText_prettyItems (depth : Nat) {ws : List Char} (hws : IsBlanks ws) (t : StreamToken)
    (ts : List StreamToken) :
    ItemsText (t :: ts) (newline depth ++ (prettyAt depth t.toData ++
      (prettyItems depth (ts.map StreamToken.toData) ++ ws))) := by
  induction ts generalizing t with
  | nil => exact .one (.intro (isBlanks_newline depth) (tokenText_prettyAt t depth) hws)
  | cons t' ts ih =>
      have hfirst : Padded (TokenText t) _ :=
        .intro (isBlanks_newline depth) (tokenText_prettyAt t depth) isBlanks_nil
      simpa [prettyItems] using ItemsText.cons hfirst (ih t')

theorem streamText_pretty (ts : List StreamToken) :
    StreamText ts (pretty (.list (ts.map StreamToken.toData))).toList := by
  have hsequence : SequenceText ts (prettyAt 0 (.list (ts.map StreamToken.toData))) := by
    cases ts with
    | nil => exact .empty isBlanks_nil
    | cons t ts =>
        have hitems := itemsText_prettyItems 1 (isBlanks_newline 0) t ts
        simpa [prettyAt] using SequenceText.items hitems
  have hpadded := Padded.intro isBlanks_nil hsequence isBlanks_nil
  rwa [List.nil_append, List.append_nil, ← String.toList_ofList (l := prettyAt _ _)] at hpadded

end TokenHighlight
