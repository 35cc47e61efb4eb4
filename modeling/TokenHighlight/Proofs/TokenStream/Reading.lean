import TokenHighlight.Proofs.Json.Value
import TokenHighlight.Proofs.TokenStream.Grammar

/-!
# Token streams are read

The reader reads every text of a token stream as the tokens that it stands for, if their offsets fit
into 64 bits and the integers among their kinds fit into 64 bits with a sign
(`readAll_streamText`).  A single integer that does not fit makes it refuse the whole stream
(`exists_readAll_streamText_eq_error`).
-/

namespace TokenHighlight

open Json

/-- The kinds that are read: all names, and the integers of 64 bits with a sign. -/
def KindRef.IsReadable : KindRef → Prop
  | code n => -9223372036854775808 ≤ n ∧ n ≤ 9223372036854775807
  | name _ => True

/-- Both offsets fit into 64 bits. -/
def Span.FitsWord (span : Span) : Prop := span.start ≤ maxWord ∧ span.stop ≤ maxWord

namespace TokenStream

variable {α : Type} {cs rest ws lead : List Char} {first : Bool} {c : Char} {kind : KindRef}
  {span : Span} {t : StreamToken} {ts : List StreamToken}

/-! ## Parts of a text

A part of a text has a comma or a closing mark behind it.  Its reader may leave blanks at the end
of the part to the reader of the mark.
-/

/-- A comma or a closing mark. -/
def IsMark (c : Char) : Prop := c = ',' ∨ c = ']' ∨ c = '\x7d'

theorem isMark_comma : IsMark ',' := .inl rfl

theorem isMark_bracket : IsMark ']' := .inr (.inl rfl)

theorem isMark_brace : IsMark '\x7d' := .inr (.inr rfl)

/-- A reader reads a part as a value. -/
def Reads (read : List Char → Reading α) (cs : List Char) (a : α) : Prop :=
  ∀ c rest, IsMark c → ∃ ws, IsBlanks ws ∧ read (cs ++ c :: rest) = .ok (a, ws ++ c :: rest)

/-- A reader refuses a part. -/
def Refuses (read : List Char → Reading α) (cs : List Char) : Prop :=
  ∀ c rest, IsMark c → ∃ e, read (cs ++ c :: rest) = .error e

theorem stopsNumber_append (h : IsBlanks ws) (hc : IsMark c) (rest : List Char) :
    StopsNumber (ws ++ c :: rest) := by
  cases ws with
  | nil =>
      rintro d ⟨⟩
      rcases hc with rfl | rfl | rfl <;> decide
  | cons d ws =>
      rintro d ⟨⟩
      exact h.stopsNumber d rfl

/-! ## Kinds -/

theorem readValue_stringText {s : String} (h : StringText s cs) (fuel depth : Nat) :
    readValue (fuel + 1) depth (cs ++ rest) = .ok (.text s, rest) := by
  obtain ⟨hspells⟩ := h
  simpa using readValue_spells hspells fuel depth rest

theorem kindOfData_int {n : Int} (h : (KindRef.code n).IsReadable) :
    kindOfData (.int n) = .ok (.code n) := if_pos h

theorem kindOfData_int_of_not {n : Int} (h : ¬(KindRef.code n).IsReadable) :
    kindOfData (.int n) = .error .noVariant := if_neg h

theorem readKind_eq_ok {x : Data} (hws : IsBlanks ws)
    (hvalue : ∀ fuel, readValue (fuel + 1) 126 cs = .ok (x, rest)) (hx : kindOfData x = .ok kind) :
    readKind (ws ++ cs) = .ok (kind, rest) := by
  rw [readKind, fuelFor, readValue_blanks_append hws, hvalue]
  simp only [hx]

theorem exists_readKind_eq_error (hws : IsBlanks ws)
    (h : ∀ fuel, (∃ e, readValue (fuel + 1) 126 cs = .error e) ∨
      ∃ x e ds, readValue (fuel + 1) 126 cs = .ok (x, ds) ∧ kindOfData x = .error e) :
    ∃ e, readKind (ws ++ cs) = .error e := by
  rw [readKind, fuelFor, readValue_blanks_append hws]
  rcases h (2 * (ws ++ cs).length + 2) with ⟨e, hvalue⟩ | ⟨x, e, ds, hvalue, hx⟩
  · rw [hvalue]
    exact ⟨e, rfl⟩
  · simp only [hvalue, hx]
    exact ⟨e, rfl⟩

theorem reads_readKind (h : Padded (KindText kind) cs) (hkind : kind.IsReadable) :
    Reads readKind cs kind := by
  intro c rest hc
  obtain ⟨hbefore, hcore, hafter⟩ := h
  refine ⟨_, hafter, ?_⟩
  rw [List.append_assoc, List.append_assoc]
  cases hcore with
  | code n =>
      have hfits : FitsWord n := by
        obtain ⟨hlow, hhigh⟩ := hkind
        exact ⟨hlow, by omega⟩
      exact readKind_eq_ok hbefore
        (readValue_ofInt hfits (stopsNumber_append hafter hc rest) · 126) (kindOfData_int hkind)
  | name hs => exact readKind_eq_ok hbefore (readValue_stringText hs · 126) rfl

theorem refuses_readKind (h : Padded (KindText kind) cs) (hkind : ¬kind.IsReadable) :
    Refuses readKind cs := by
  intro c rest hc
  obtain ⟨hbefore, hcore, hafter⟩ := h
  rw [List.append_assoc, List.append_assoc]
  cases hcore with
  | name hs => exact absurd trivial hkind
  | code n =>
      have hrest := stopsNumber_append hafter hc rest
      refine exists_readKind_eq_error hbefore fun fuel => ?_
      by_cases hfits : FitsWord n
      · exact Or.inr
          ⟨_, _, _, readValue_ofInt hfits hrest fuel 126, kindOfData_int_of_not hkind⟩
      · refine (readValue_ofInt_of_not_fits hfits hrest fuel 126).imp_right ?_
        rintro ⟨x, hfloat⟩
        exact ⟨_, _, _, hfloat, rfl⟩

/-! ## Spans -/

theorem readOffset_ofNat {n : Nat} (hn : n ≤ maxWord) (hrest : StopsNumber rest) :
    readOffset (Decimal.ofNat n ++ rest) = .ok (n, rest) := by
  have hread : readNumber false (Decimal.ofNat n ++ rest) = readTail.integer false n rest :=
    readNumber_ofNat hn hrest
  obtain ⟨c, cs, heq, hdigit, hblank⟩ := exists_ofNat_append_eq_cons n rest
  have hminus : c ≠ '-' := by
    rintro rfl
    cases hdigit
  rw [heq] at hread ⊢
  simp [readOffset, hblank, hdigit, hread, readTail.integer, offsetOfNumber]

theorem reads_readOffset {n : Nat} (h : Padded (· = Decimal.ofNat n) cs) (hn : n ≤ maxWord)
    (hlead : Leads first lead) (missing : ReadError) :
    Reads (readItem first missing readOffset) (lead ++ cs) n := by
  intro c rest hc
  obtain @⟨before, core, after, hbefore, rfl, hafter⟩ := h
  refine ⟨after, hafter, ?_⟩
  have hread := readOffset_ofNat hn (stopsNumber_append hafter hc rest)
  obtain ⟨d, ds, heq, hdigit, hblank⟩ := exists_ofNat_append_eq_cons n (after ++ c :: rest)
  have hend : d ≠ ']' := by
    rintro rfl
    cases hdigit
  rw [heq] at hread
  rw [List.append_assoc, List.append_assoc, List.append_assoc, heq, readItem,
    hlead.nextItem_append hbefore hblank hend]
  exact hread

theorem readSpan_spanText (h : SpanText span cs) (hspan : span.FitsWord) (rest : List Char) :
    readSpan (cs ++ rest) = .ok (span, rest) := by
  obtain @⟨cs, ds, hstart, hstop⟩ := h
  obtain ⟨ws, hws, hfirst⟩ := reads_readOffset hstart hspan.1 .first
    (.wrongLength 0 "a tuple of size 2") ',' (ds ++ ']' :: rest) isMark_comma
  obtain ⟨ws', hws', hsecond⟩ := reads_readOffset hstop hspan.2 (.comma hws)
    (.wrongLength 1 "a tuple of size 2") ']' rest isMark_bracket
  simp only [List.nil_append, List.append_assoc, List.cons_append] at hfirst hsecond
  simp [readSpan, skipBlanks_cons (c := '[') rfl, readTwo, hfirst, hsecond, endList_append hws']

theorem reads_readSpan (h : Padded (SpanText span) cs) (hspan : span.FitsWord) :
    Reads readSpan cs span := by
  intro c rest hc
  obtain @⟨before, core, after, hbefore, hcore, hafter⟩ := h
  refine ⟨after, hafter, ?_⟩
  have hread := readSpan_spanText hcore hspan (after ++ c :: rest)
  rw [List.append_assoc, List.append_assoc]
  rw [readSpan] at hread ⊢
  rwa [skipBlanks_append hbefore]

/-! ## Fields -/

section Fields

variable {key key' : String} {part part' : List Char → Prop} {ds : List Char} {p q : Gathered}

/-- Behind its key, a field is read and takes the fields from `p` to `q`. -/
def ReadsField (key : String) (part : List Char → Prop) (p q : Gathered) : Prop :=
  ∀ ws cs, IsBlanks ws → Padded part cs → Reads (readField key.toList p) (ws ++ ':' :: cs) q

/-- Behind its key, a field is refused. -/
def RefusesField (key : String) (part : List Char → Prop) (p : Gathered) : Prop :=
  ∀ ws cs, IsBlanks ws → Padded part cs → Refuses (readField key.toList p) (ws ++ ':' :: cs)

theorem readsField_kind (hkind : kind.IsReadable) (span? : Option Span) :
    ReadsField "kind" (KindText kind) ⟨none, span?⟩ ⟨some kind, span?⟩ := by
  intro ws cs hws h c rest hc
  obtain ⟨ws', hws', hread⟩ := reads_readKind h hkind c rest hc
  exact ⟨ws', hws', by simp [readField, colon_append hws, hread]⟩

theorem refusesField_kind (hkind : ¬kind.IsReadable) (span? : Option Span) :
    RefusesField "kind" (KindText kind) ⟨none, span?⟩ := by
  intro ws cs hws h c rest hc
  obtain ⟨e, hread⟩ := refuses_readKind h hkind c rest hc
  exact ⟨e, by simp [readField, colon_append hws, hread]⟩

theorem readsField_span (hspan : span.FitsWord) (kind? : Option KindRef) :
    ReadsField "span" (SpanText span) ⟨kind?, none⟩ ⟨kind?, some span⟩ := by
  intro ws cs hws h c rest hc
  obtain ⟨ws', hws', hread⟩ := reads_readSpan h hspan c rest hc
  exact ⟨ws', hws', by simp [readField, colon_append hws, hread]⟩

theorem readFields_fieldText (h : FieldText key part cs) (hlead : Leads first lead)
    (hfield : ReadsField key part p q) (hc : IsMark c) (fuel : Nat) (rest : List Char) :
    ∃ ws, IsBlanks ws ∧ readFields (fuel + 1) first p (lead ++ (cs ++ c :: rest)) =
      readFields fuel false q (ws ++ c :: rest) := by
  obtain ⟨⟨hbefore, ⟨hspells⟩, hafter⟩, hvalue⟩ := h
  obtain ⟨ws, hws, hread⟩ := hfield _ _ hafter hvalue c rest hc
  refine ⟨ws, hws, ?_⟩
  simp only [List.append_assoc, List.cons_append, List.nil_append] at hread ⊢
  rw [readFields, hlead.nextKey_append hbefore]
  simp only [readString_append hspells, hread]

theorem exists_readFields_fieldText_eq_error (h : FieldText key part cs)
    (hlead : Leads first lead) (hfield : RefusesField key part p) (hc : IsMark c) (fuel : Nat)
    (rest : List Char) :
    ∃ e, readFields (fuel + 1) first p (lead ++ (cs ++ c :: rest)) = .error e := by
  obtain ⟨⟨hbefore, ⟨hspells⟩, hafter⟩, hvalue⟩ := h
  obtain ⟨e, hread⟩ := hfield _ _ hafter hvalue c rest hc
  refine ⟨e, ?_⟩
  simp only [List.append_assoc, List.cons_append, List.nil_append] at hread ⊢
  rw [readFields, hlead.nextKey_append hbefore]
  simp only [readString_append hspells, hread]

/-! ## Objects of two fields -/

/-- Each field takes one step and their end another, and the text of an object is longer. -/
theorem exists_length_eq (cs ds rest : List Char) :
    ∃ fuel, (cs ++ ',' :: (ds ++ '\x7d' :: rest)).length + 1 = fuel + 3 := by
  refine ⟨cs.length + ds.length + rest.length, ?_⟩
  simp only [List.length_append, List.length_cons]
  omega

theorem readToken_brace (cs : List Char) :
    readToken ('\x7b' :: cs) =
      match readFields (cs.length + 1) true ⟨none, none⟩ cs with
      | .error e => .error e
      | .ok (p, cs) =>
          match p.complete with
          | .error e => .error e
          | .ok token =>
              match endObject cs with
              | .error e => .error e
              | .ok cs => .ok (token, cs) := by
  rw [readToken, skipBlanks_cons rfl]
  rfl

theorem readToken_twoFields (h : FieldText key part cs) (h' : FieldText key' part' ds)
    (hfirst : ReadsField key part ⟨none, none⟩ p) (hsecond : ReadsField key' part' p q)
    (hq : q.complete = .ok t) (rest : List Char) :
    readToken ('\x7b' :: (cs ++ ',' :: (ds ++ '\x7d' :: rest))) = .ok (t, rest) := by
  obtain ⟨fuel, hfuel⟩ := exists_length_eq cs ds rest
  obtain ⟨ws, hws, hone⟩ := readFields_fieldText h .first hfirst isMark_comma (fuel + 2)
    (ds ++ '\x7d' :: rest)
  obtain ⟨ws', hws', htwo⟩ := readFields_fieldText h' (.comma hws) hsecond isMark_brace (fuel + 1)
    rest
  simp only [List.nil_append, List.append_assoc, List.cons_append] at hone htwo
  rw [readToken_brace, hfuel, hone, htwo, readFields, nextKey_end hws']
  simp only [hq, endObject_append hws']

theorem exists_readToken_eq_error_of_first (h : FieldText key part cs)
    (hfirst : RefusesField key part ⟨none, none⟩) (rest : List Char) :
    ∃ e, readToken ('\x7b' :: (cs ++ ',' :: rest)) = .error e := by
  obtain ⟨e, hone⟩ := exists_readFields_fieldText_eq_error h .first hfirst isMark_comma
    (cs ++ ',' :: rest).length rest
  refine ⟨e, ?_⟩
  rw [List.nil_append] at hone
  rw [readToken_brace, hone]

theorem exists_readToken_eq_error_of_second (h : FieldText key part cs)
    (h' : FieldText key' part' ds) (hfirst : ReadsField key part ⟨none, none⟩ p)
    (hsecond : RefusesField key' part' p) (rest : List Char) :
    ∃ e, readToken ('\x7b' :: (cs ++ ',' :: (ds ++ '\x7d' :: rest))) = .error e := by
  obtain ⟨fuel, hfuel⟩ := exists_length_eq cs ds rest
  obtain ⟨ws, hws, hone⟩ := readFields_fieldText h .first hfirst isMark_comma (fuel + 2)
    (ds ++ '\x7d' :: rest)
  obtain ⟨e, htwo⟩ := exists_readFields_fieldText_eq_error h' (.comma hws) hsecond isMark_brace
    (fuel + 1) rest
  simp only [List.nil_append, List.append_assoc, List.cons_append] at hone htwo
  refine ⟨e, ?_⟩
  rw [readToken_brace, hfuel, hone, htwo]

end Fields

/-! ## Tokens -/

theorem readToken_tokenText (h : TokenText t cs) (hkind : t.kind.IsReadable)
    (hspan : t.span.FitsWord) (rest : List Char) : readToken (cs ++ rest) = .ok (t, rest) := by
  cases h with
  | kindFirst hk hs =>
      have hread := readToken_twoFields hk hs (readsField_kind hkind none)
        (readsField_span hspan (some t.kind)) rfl rest
      simpa using hread
  | spanFirst hs hk =>
      have hread := readToken_twoFields hs hk (readsField_span hspan none)
        (readsField_kind hkind (some t.span)) rfl rest
      simpa using hread

theorem exists_readToken_tokenText_eq_error (h : TokenText t cs) (hkind : ¬t.kind.IsReadable)
    (hspan : t.span.FitsWord) (rest : List Char) : ∃ e, readToken (cs ++ rest) = .error e := by
  cases h with
  | @kindFirst cs ds hk hs =>
      have hread := exists_readToken_eq_error_of_first hk (refusesField_kind hkind none)
        (ds ++ '\x7d' :: rest)
      simpa using hread
  | spanFirst hs hk =>
      have hread := exists_readToken_eq_error_of_second hs hk (readsField_span hspan none)
        (refusesField_kind hkind (some t.span)) rest
      simpa using hread

theorem nextItem_tokenText (h : TokenText t cs) (hlead : Leads first lead) (hws : IsBlanks ws)
    (rest : List Char) : nextItem first (lead ++ (ws ++ (cs ++ rest))) = .ok (some (cs ++ rest)) := by
  obtain ⟨ds, rfl⟩ := h.exists_eq_cons
  exact hlead.nextItem_append hws rfl (by decide) (ds ++ rest)

/-! ## Sequences of tokens -/

theorem readTokens_tokenText (h : Padded (TokenText t) cs) (hlead : Leads first lead)
    (hkind : t.kind.IsReadable) (hspan : t.span.FitsWord) (fuel : Nat) (rest : List Char) :
    ∃ ws, IsBlanks ws ∧ readTokens (fuel + 1) first (lead ++ (cs ++ rest)) =
      (readTokens fuel false (ws ++ rest)).map fun r => (t :: r.1, r.2) := by
  obtain @⟨before, core, after, hbefore, hcore, hafter⟩ := h
  refine ⟨after, hafter, ?_⟩
  rw [List.append_assoc, List.append_assoc, readTokens, nextItem_tokenText hcore hlead hbefore]
  simp only [readToken_tokenText hcore hkind hspan]
  cases readTokens fuel false (after ++ rest) <;> rfl

theorem exists_readTokens_tokenText_eq_error (h : Padded (TokenText t) cs)
    (hlead : Leads first lead) (hkind : ¬t.kind.IsReadable) (hspan : t.span.FitsWord) (fuel : Nat)
    (rest : List Char) : ∃ e, readTokens fuel first (lead ++ (cs ++ rest)) = .error e := by
  cases fuel with
  | zero => exact ⟨.tooDeep, rfl⟩
  | succ fuel =>
      obtain @⟨before, core, after, hbefore, hcore, hafter⟩ := h
      obtain ⟨e, hread⟩ := exists_readToken_tokenText_eq_error hcore hkind hspan (after ++ rest)
      refine ⟨e, ?_⟩
      rw [List.append_assoc, List.append_assoc, readTokens, nextItem_tokenText hcore hlead hbefore]
      simp only [hread]

theorem readTokens_end (hws : IsBlanks ws) (fuel : Nat) (first : Bool) (rest : List Char) :
    readTokens (fuel + 1) first (ws ++ ']' :: rest) = .ok ([], ws ++ ']' :: rest) := by
  rw [readTokens, nextItem_end hws]

theorem readTokens_itemsText (h : ItemsText ts cs)
    (hts : ∀ t ∈ ts, t.kind.IsReadable ∧ t.span.FitsWord) (hlead : Leads first lead) {fuel : Nat}
    (hfuel : ts.length < fuel) (rest : List Char) :
    ∃ ws, IsBlanks ws ∧
      readTokens fuel first (lead ++ (cs ++ ']' :: rest)) = .ok (ts, ws ++ ']' :: rest) := by
  induction h generalizing first lead fuel with
  | one h =>
      obtain ⟨hkind, hspan⟩ := hts _ List.mem_cons_self
      obtain ⟨fuel, rfl⟩ : ∃ n, fuel = n + 2 := ⟨fuel - 2, by grind⟩
      obtain ⟨ws, hws, hread⟩ := readTokens_tokenText h hlead hkind hspan (fuel + 1) (']' :: rest)
      refine ⟨ws, hws, ?_⟩
      rw [hread, readTokens_end hws]
      rfl
  | @cons t ts cs ds h hs ih =>
      rw [List.forall_mem_cons] at hts
      obtain ⟨⟨hkind, hspan⟩, hts⟩ := hts
      obtain ⟨fuel, rfl⟩ : ∃ n, fuel = n + 1 := ⟨fuel - 1, by omega⟩
      obtain ⟨ws, hws, hread⟩ := readTokens_tokenText h hlead hkind hspan fuel
        (',' :: (ds ++ ']' :: rest))
      obtain ⟨ws', hws', htail⟩ := ih hts (.comma hws) (Nat.lt_of_succ_lt_succ hfuel)
      refine ⟨ws', hws', ?_⟩
      simp only [List.append_assoc, List.cons_append, List.nil_append] at htail hread ⊢
      rw [hread, htail]
      rfl

theorem exists_readTokens_itemsText_eq_error (h : ItemsText ts cs)
    (hspans : ∀ t ∈ ts, t.span.FitsWord) (hbad : ∃ t ∈ ts, ¬t.kind.IsReadable)
    (hlead : Leads first lead) (fuel : Nat) (rest : List Char) :
    ∃ e, readTokens fuel first (lead ++ (cs ++ ']' :: rest)) = .error e := by
  induction h generalizing first lead fuel with
  | @one t cs h =>
      have hspan := hspans t List.mem_cons_self
      have hkind : ¬t.kind.IsReadable := by simpa using hbad
      exact exists_readTokens_tokenText_eq_error h hlead hkind hspan fuel (']' :: rest)
  | @cons t ts cs ds h hs ih =>
      rw [List.forall_mem_cons] at hspans
      obtain ⟨hspan, hspans⟩ := hspans
      rw [List.append_assoc, List.cons_append]
      by_cases hkind : t.kind.IsReadable
      · cases fuel with
        | zero => exact ⟨.tooDeep, rfl⟩
        | succ fuel =>
            obtain ⟨ws, hws, hread⟩ := readTokens_tokenText h hlead hkind hspan fuel
              (',' :: (ds ++ ']' :: rest))
            have hbad : ∃ t ∈ ts, ¬t.kind.IsReadable := by simpa [hkind] using hbad
            obtain ⟨e, htail⟩ := ih hspans hbad (.comma hws) fuel
            refine ⟨e, ?_⟩
            rw [List.append_assoc, List.singleton_append] at htail
            rw [hread, htail]
            rfl
      · exact exists_readTokens_tokenText_eq_error h hlead hkind hspan fuel _

/-! ## Streams -/

theorem length_le_of_itemsText (h : ItemsText ts cs) : ts.length ≤ cs.length + 1 := by
  induction h with
  | one h => simp
  | cons h hs ih =>
      simp only [List.length_cons, List.length_append]
      omega

theorem readAll_bracket (hws : IsBlanks ws) (cs : List Char) :
    readAll (ws ++ '[' :: cs) =
      match readTokens (cs.length + 1) true cs with
      | .error e => .error e
      | .ok (tokens, cs) =>
          match endList cs with
          | .error e => .error e
          | .ok cs => if (skipBlanks cs).isEmpty then .ok tokens else .error .trailingText := by
  rw [readAll, skipBlanks_append hws, skipBlanks_cons rfl]
  rfl

theorem skipBlanks_eq_nil (hws : IsBlanks ws) : skipBlanks ws = [] := by
  have hskip := skipBlanks_append hws []
  rwa [List.append_nil] at hskip

theorem readTokens_sequenceText (h : SequenceText ts ('[' :: cs))
    (hts : ∀ t ∈ ts, t.kind.IsReadable ∧ t.span.FitsWord) (rest : List Char) :
    ∃ ws, IsBlanks ws ∧
      readTokens ((cs ++ rest).length + 1) true (cs ++ rest) = .ok (ts, ws ++ ']' :: rest) := by
  cases h with
  | empty hws =>
      refine ⟨_, hws, ?_⟩
      rw [List.append_assoc, List.singleton_append]
      exact readTokens_end hws _ true rest
  | @items ts cs h =>
      have hlength := length_le_of_itemsText h
      rw [List.append_assoc, List.singleton_append]
      refine readTokens_itemsText h hts .first ?_ rest
      simp only [List.length_append, List.length_cons]
      omega

theorem exists_readTokens_sequenceText_eq_error (h : SequenceText ts ('[' :: cs))
    (hspans : ∀ t ∈ ts, t.span.FitsWord) (hbad : ∃ t ∈ ts, ¬t.kind.IsReadable)
    (rest : List Char) :
    ∃ e, readTokens ((cs ++ rest).length + 1) true (cs ++ rest) = .error e := by
  cases h with
  | empty hws => simp at hbad
  | items h =>
      rw [List.append_assoc, List.singleton_append]
      exact exists_readTokens_itemsText_eq_error h hspans hbad .first _ rest

/-- Every text of a token stream is read as its tokens, in order. -/
theorem readAll_streamText (h : StreamText ts cs)
    (hts : ∀ t ∈ ts, t.kind.IsReadable ∧ t.span.FitsWord) : readAll cs = .ok ts := by
  obtain @⟨before, core, after, hbefore, hcore, hafter⟩ := h
  obtain ⟨ds, rfl⟩ := hcore.exists_eq_cons
  obtain ⟨ws, hws, hread⟩ := readTokens_sequenceText hcore hts after
  rw [List.cons_append, readAll_bracket hbefore, hread]
  simp only [endList_append hws, skipBlanks_eq_nil hafter, List.isEmpty_nil, if_true]

/-- One integer that does not fit is enough for a stream to be refused. -/
theorem exists_readAll_streamText_eq_error (h : StreamText ts cs)
    (hspans : ∀ t ∈ ts, t.span.FitsWord) (hbad : ∃ t ∈ ts, ¬t.kind.IsReadable) :
    ∃ e, readAll cs = .error e := by
  obtain @⟨before, core, after, hbefore, hcore, hafter⟩ := h
  obtain ⟨ds, rfl⟩ := hcore.exists_eq_cons
  obtain ⟨e, hread⟩ := exists_readTokens_sequenceText_eq_error hcore hspans hbad after
  refine ⟨e, ?_⟩
  rw [List.cons_append, readAll_bracket hbefore, hread]

end TokenStream

end TokenHighlight
