import TokenHighlight.Proofs.Json.Number

/-!
# JSON values written and read

Reading inverts printing (`read_pretty`): no value is lost in its JSON text, as long as its integers
fit into 64 bits, it has no floating point numbers and it is not nested too deeply (`IsExact`).
-/

namespace TokenHighlight

namespace Json

variable {x : Data} {f : String × Data} {depth fuel indent : Nat} {lead ws rest : List Char}
  {first : Bool}

/-! ## Values in their places -/

theorem readValue_blanks_append (h : IsBlanks ws) (fuel depth : Nat) (cs : List Char) :
    readValue (fuel + 1) depth (ws ++ cs) = readValue (fuel + 1) depth cs := by
  simp only [readValue, skipBlanks_append h]

theorem readValue_spells {cs : List Char} {s : String} (h : Spells cs s.toList) (fuel depth : Nat)
    (rest : List Char) :
    readValue (fuel + 1) depth ('"' :: (cs ++ '"' :: rest)) = .ok (.text s, rest) := by
  simp [readValue, skipBlanks_cons (c := '"') rfl, readString_append h]

theorem stopsNumber_newline (depth : Nat) (cs : List Char) : StopsNumber (newline depth ++ cs) := by
  rintro c ⟨⟩
  decide

theorem stopsNumber_comma (cs : List Char) : StopsNumber (',' :: cs) := by
  rintro c ⟨⟩
  decide

theorem IsBlanks.stopsNumber (h : IsBlanks ws) : StopsNumber ws := by
  intro c hc
  have hblank := h c (List.mem_of_head? hc)
  simp only [isBlank, Bool.or_eq_true, beq_iff_eq] at hblank
  rcases hblank with ((rfl | rfl) | rfl) | rfl <;> decide

/-- The values that are read as they have been written.  They are nested at most `depth` deep. -/
inductive IsExact : Nat → Data → Prop
  | null {depth : Nat} : IsExact depth .null
  | bool {depth : Nat} (b : Bool) : IsExact depth (.bool b)
  | int {depth : Nat} {n : Int} (h : FitsWord n) : IsExact depth (.int n)
  | text {depth : Nat} (s : String) : IsExact depth (.text s)
  | list {depth : Nat} {xs : List Data} (h : ∀ x ∈ xs, IsExact depth x) :
      IsExact (depth + 1) (.list xs)
  | record {depth : Nat} {fs : List (String × Data)} (h : ∀ f ∈ fs, IsExact depth f.2) :
      IsExact (depth + 1) (.record fs)

theorem IsExact.mono {d : Nat} (h : IsExact d x) (hd : d ≤ depth) : IsExact depth x := by
  induction h generalizing depth with
  | null => exact .null
  | bool b => exact .bool b
  | int hn => exact .int hn
  | text s => exact .text s
  | list _ ih =>
      obtain ⟨depth, rfl⟩ : ∃ n, depth = n + 1 := ⟨depth - 1, by omega⟩
      exact .list fun x hx => ih x hx (by omega)
  | record _ ih =>
      obtain ⟨depth, rfl⟩ : ∃ n, depth = n + 1 := ⟨depth - 1, by omega⟩
      exact .record fun f hf => ih f hf (by omega)

/-- A value starts with a character that is no blank and does not end a sequence. -/
theorem IsExact.exists_prettyAt_eq_cons (h : IsExact depth x) (indent : Nat) :
    ∃ c cs, prettyAt indent x = c :: cs ∧ isBlank c = false ∧ c ≠ ']' := by
  cases h with
  | null => exact ⟨'n', _, by rw [prettyAt]; rfl, rfl, by decide⟩
  | bool b =>
      cases b with
      | false => exact ⟨'f', _, by rw [prettyAt]; rfl, rfl, by decide⟩
      | true => exact ⟨'t', _, by rw [prettyAt]; rfl, rfl, by decide⟩
  | @int _ n h =>
      rw [prettyAt]
      cases n with
      | ofNat n =>
          obtain ⟨c, cs, heq, hdigit, hblank⟩ := exists_ofNat_append_eq_cons n []
          rw [List.append_nil] at heq
          refine ⟨c, cs, heq, hblank, ?_⟩
          rintro rfl
          exact absurd hdigit (by decide)
      | negSucc n => exact ⟨'-', _, rfl, rfl, by decide⟩
  | text s => exact ⟨'"', _, by rw [prettyAt, quote, List.cons_append], rfl, by decide⟩
  | @list _ xs h =>
      cases xs with
      | nil => exact ⟨'[', _, by rw [prettyAt]; rfl, rfl, by decide⟩
      | cons x xs => exact ⟨'[', _, by rw [prettyAt]; rfl, rfl, by decide⟩
  | @record _ fs h =>
      cases fs with
      | nil => exact ⟨'\x7b', _, by rw [prettyAt], rfl, by decide⟩
      | cons f fs => exact ⟨'\x7b', _, by rw [prettyAt]; rfl, rfl, by decide⟩

/-- The reader gets a value back from its text; it takes no more steps than there are characters. -/
def ReadsBack (depth : Nat) (x : Data) : Prop :=
  ∀ indent fuel rest, (prettyAt indent x).length ≤ fuel → StopsNumber rest →
    readValue (fuel + 1) depth (prettyAt indent x ++ rest) = .ok (x, rest)

/-! ## Sequences -/

theorem stopsNumber_prettyItems (indent : Nat) (xs : List Data) (h : StopsNumber rest) :
    StopsNumber (prettyItems indent xs ++ rest) := by
  cases xs with
  | nil => simpa only [prettyItems, List.nil_append] using h
  | cons x xs =>
      simp only [prettyItems, List.cons_append]
      exact stopsNumber_comma _

theorem readItems_append {d : Nat} (hx : IsExact d x) (hread : ReadsBack depth x)
    (hlead : Leads first lead) (hws : IsBlanks ws) (hrest : StopsNumber rest)
    (hfuel : (prettyAt indent x).length ≤ fuel) :
    readItems (fuel + 2) depth first (lead ++ (ws ++ (prettyAt indent x ++ rest))) =
      (readItems (fuel + 1) depth false rest).map fun r => (x :: r.1, r.2) := by
  obtain ⟨c, cs, heq, hblank, hend⟩ := hx.exists_prettyAt_eq_cons indent
  have hvalue := hread indent fuel rest hfuel hrest
  have hnext := hlead.nextItem_append hws hblank hend (cs ++ rest)
  rw [← List.cons_append, ← heq] at hnext
  rw [readItems, hnext]
  simp only [hvalue]
  cases readItems (fuel + 1) depth false rest <;> rfl

theorem readItems_end (hws : IsBlanks ws) (fuel depth : Nat) (first : Bool) (rest : List Char) :
    readItems (fuel + 1) depth first (ws ++ ']' :: rest) = .ok ([], ws ++ ']' :: rest) := by
  rw [readItems, nextItem_end hws]

theorem readItems_prettyItems {d : Nat} {xs : List Data} (hxs : ∀ x ∈ xs, IsExact d x)
    (hread : ∀ x ∈ xs, ReadsBack depth x) (hws : IsBlanks ws)
    (hstop : StopsNumber (ws ++ ']' :: rest)) (hfuel : (prettyItems indent xs).length ≤ fuel) :
    readItems (fuel + 1) depth false (prettyItems indent xs ++ (ws ++ ']' :: rest)) =
      .ok (xs, ws ++ ']' :: rest) := by
  induction xs generalizing fuel with
  | nil =>
      rw [prettyItems, List.nil_append]
      exact readItems_end hws fuel depth false rest
  | cons x xs ih =>
      rw [List.forall_mem_cons] at hxs hread
      simp only [prettyItems, List.cons_append, List.length_cons, List.length_append] at hfuel
      obtain ⟨fuel, rfl⟩ : ∃ n, fuel = n + 1 := ⟨fuel - 1, by omega⟩
      have hx : (prettyAt indent x).length ≤ fuel := by omega
      have hxs' : (prettyItems indent xs).length ≤ fuel := by omega
      have hitem := readItems_append hxs.1 hread.1 (.comma isBlanks_nil) (isBlanks_newline indent)
        (stopsNumber_prettyItems indent xs hstop) hx
      have htail := ih hxs.2 hread.2 hxs'
      rw [htail] at hitem
      simp only [prettyItems, List.cons_append, List.nil_append, List.append_assoc] at hitem ⊢
      exact hitem

theorem readsBack_list {d : Nat} {xs : List Data} (hdepth : 1 < depth)
    (hxs : ∀ x ∈ xs, IsExact d x) (hread : ∀ x ∈ xs, ReadsBack (depth - 1) x) :
    ReadsBack depth (.list xs) := by
  intro indent fuel rest hfuel _
  have hdeep : ¬depth ≤ 1 := Nat.not_le.2 hdepth
  cases xs with
  | nil =>
      have hlength : 2 ≤ fuel := hfuel
      obtain ⟨fuel, rfl⟩ : ∃ n, fuel = n + 1 := ⟨fuel - 1, by omega⟩
      have hitems := readItems_end isBlanks_nil fuel (depth - 1) true rest
      have hend := endList_append isBlanks_nil rest
      rw [List.nil_append] at hitems hend
      simp [prettyAt, readValue, skipBlanks_cons (c := '[') rfl, hdeep, hitems, hend, wordValue]
  | cons x xs =>
      rw [List.forall_mem_cons] at hxs hread
      simp only [prettyAt, List.cons_append, List.length_cons, List.length_append] at hfuel
      obtain ⟨fuel, rfl⟩ : ∃ n, fuel = n + 2 := ⟨fuel - 2, by omega⟩
      have hstop : StopsNumber (newline indent ++ ']' :: rest) := stopsNumber_newline _ _
      have hx : (prettyAt (indent + 1) x).length ≤ fuel := by omega
      have hxs' : (prettyItems (indent + 1) xs).length ≤ fuel := by omega
      have hitems := readItems_append hxs.1 hread.1 .first (isBlanks_newline (indent + 1))
        (stopsNumber_prettyItems (indent + 1) xs hstop) hx
      have htail := readItems_prettyItems hxs.2 hread.2 (isBlanks_newline indent) hstop hxs'
      have hend := endList_append (isBlanks_newline indent) rest
      rw [htail, List.nil_append, Except.map] at hitems
      simp [prettyAt, readValue, skipBlanks_cons (c := '[') rfl, hdeep, hitems, hend, wordValue]

/-! ## Records -/

theorem stopsNumber_prettyFields (indent : Nat) (fs : List (String × Data)) (h : StopsNumber rest) :
    StopsNumber (prettyFields indent fs ++ rest) := by
  cases fs with
  | nil => simpa only [prettyFields, List.nil_append] using h
  | cons f fs =>
      simp only [prettyFields, List.cons_append]
      exact stopsNumber_comma _

theorem readFields_append (hread : ReadsBack depth f.2) (hlead : Leads first lead)
    (hws : IsBlanks ws) (hrest : StopsNumber rest) (hfuel : (prettyField indent f).length ≤ fuel) :
    readFields (fuel + 2) depth first (lead ++ (ws ++ (prettyField indent f ++ rest))) =
      (readFields (fuel + 1) depth false rest).map fun r => (f :: r.1, r.2) := by
  obtain ⟨name, x⟩ := f
  have hlength : (prettyAt indent x).length ≤ fuel := by
    simp only [prettyField, List.length_append] at hfuel
    omega
  have hnext := hlead.nextKey_append hws
    (name.toList.flatMap escape ++ '"' :: ':' :: ' ' :: (prettyAt indent x ++ rest))
  have hkey := readString_append (spells_flatMap_escape name.toList)
    (':' :: ' ' :: (prettyAt indent x ++ rest))
  have hcolon : colon (':' :: ' ' :: (prettyAt indent x ++ rest)) =
      .ok (' ' :: (prettyAt indent x ++ rest)) := colon_append isBlanks_nil _
  have hvalue : readValue (fuel + 1) depth (' ' :: (prettyAt indent x ++ rest)) = .ok (x, rest) :=
    (readValue_blanks_append isBlanks_space fuel depth _).trans (hread indent fuel rest hlength hrest)
  simp only [prettyField, quote, String.reduceToList, List.cons_append, List.append_assoc,
    List.nil_append] at hnext ⊢
  rw [readFields, hnext]
  simp only [hkey, hcolon, hvalue, String.ofList_toList]
  cases readFields (fuel + 1) depth false rest <;> rfl

theorem readFields_end (hws : IsBlanks ws) (fuel depth : Nat) (first : Bool) (rest : List Char) :
    readFields (fuel + 1) depth first (ws ++ '\x7d' :: rest) = .ok ([], ws ++ '\x7d' :: rest) := by
  rw [readFields, nextKey_end hws]

theorem readFields_prettyFields {fs : List (String × Data)}
    (hread : ∀ f ∈ fs, ReadsBack depth f.2) (hws : IsBlanks ws)
    (hstop : StopsNumber (ws ++ '\x7d' :: rest)) (hfuel : (prettyFields indent fs).length ≤ fuel) :
    readFields (fuel + 1) depth false (prettyFields indent fs ++ (ws ++ '\x7d' :: rest)) =
      .ok (fs, ws ++ '\x7d' :: rest) := by
  induction fs generalizing fuel with
  | nil =>
      rw [prettyFields, List.nil_append]
      exact readFields_end hws fuel depth false rest
  | cons f fs ih =>
      rw [List.forall_mem_cons] at hread
      simp only [prettyFields, List.cons_append, List.length_cons, List.length_append] at hfuel
      obtain ⟨fuel, rfl⟩ : ∃ n, fuel = n + 1 := ⟨fuel - 1, by omega⟩
      have hf : (prettyField indent f).length ≤ fuel := by omega
      have hfs : (prettyFields indent fs).length ≤ fuel := by omega
      have hfield := readFields_append hread.1 (.comma isBlanks_nil) (isBlanks_newline indent)
        (stopsNumber_prettyFields indent fs hstop) hf
      have htail := ih hread.2 hfs
      rw [htail] at hfield
      simp only [prettyFields, List.cons_append, List.nil_append, List.append_assoc] at hfield ⊢
      exact hfield

theorem readsBack_record {fs : List (String × Data)} (hdepth : 1 < depth)
    (hread : ∀ f ∈ fs, ReadsBack (depth - 1) f.2) : ReadsBack depth (.record fs) := by
  intro indent fuel rest hfuel _
  have hdeep : ¬depth ≤ 1 := Nat.not_le.2 hdepth
  cases fs with
  | nil =>
      have hlength : 2 ≤ fuel := hfuel
      obtain ⟨fuel, rfl⟩ : ∃ n, fuel = n + 1 := ⟨fuel - 1, by omega⟩
      have hfields := readFields_end isBlanks_nil fuel (depth - 1) true rest
      have hend := endObject_append isBlanks_nil rest
      rw [List.nil_append] at hfields hend
      simp [prettyAt, readValue, skipBlanks_cons (c := '\x7b') rfl, hdeep, hfields, hend, wordValue]
  | cons f fs =>
      rw [List.forall_mem_cons] at hread
      simp only [prettyAt, List.cons_append, List.length_cons, List.length_append] at hfuel
      obtain ⟨fuel, rfl⟩ : ∃ n, fuel = n + 2 := ⟨fuel - 2, by omega⟩
      have hstop : StopsNumber (newline indent ++ '\x7d' :: rest) := stopsNumber_newline _ _
      have hf : (prettyField (indent + 1) f).length ≤ fuel := by omega
      have hfs : (prettyFields (indent + 1) fs).length ≤ fuel := by omega
      have hfields := readFields_append hread.1 .first (isBlanks_newline (indent + 1))
        (stopsNumber_prettyFields (indent + 1) fs hstop) hf
      have htail := readFields_prettyFields hread.2 (isBlanks_newline indent) hstop hfs
      have hend := endObject_append (isBlanks_newline indent) rest
      rw [htail, List.nil_append, Except.map] at hfields
      simp [prettyAt, readValue, skipBlanks_cons (c := '\x7b') rfl, hdeep, hfields, hend, wordValue]

/-! ## Values -/

theorem IsExact.readsBack {d : Nat} (h : IsExact d x) (hd : d < depth) : ReadsBack depth x := by
  induction h generalizing depth with
  | null =>
      intro indent fuel rest _ _
      simp [prettyAt, readValue, skipBlanks_cons (c := 'n') rfl, readWord, wordValue]
  | bool b =>
      intro indent fuel rest _ _
      cases b with
      | false => simp [prettyAt, readValue, skipBlanks_cons (c := 'f') rfl, readWord, wordValue]
      | true => simp [prettyAt, readValue, skipBlanks_cons (c := 't') rfl, readWord, wordValue]
  | int hn =>
      intro indent fuel rest _ hrest
      rw [prettyAt]
      exact readValue_ofInt hn hrest fuel depth
  | text s =>
      intro indent fuel rest _ _
      have hvalue := readValue_spells (spells_flatMap_escape s.toList) fuel depth rest
      simpa [prettyAt, quote] using hvalue
  | list hxs ih => exact readsBack_list (by omega) hxs fun x hx => ih x hx (by omega)
  | record hfs ih => exact readsBack_record (by omega) fun f hf => ih f hf (by omega)

/-- A value is read back from its text with blanks after it. -/
theorem read_pretty_append (h : IsExact 127 x) (hws : IsBlanks ws) :
    read (pretty x ++ String.ofList ws) = .ok x := by
  have hvalue := h.readsBack (Nat.lt_succ_self 127) 0 (2 * (prettyAt 0 x ++ ws).length + 2) ws
    (by rw [List.length_append]; omega) hws.stopsNumber
  have hskip : skipBlanks ws = [] := by simpa [skipBlanks] using skipBlanks_append hws []
  simp only [read, pretty, fuelFor, String.toList_append, String.toList_ofList, hvalue, hskip]
  rfl

/-- A value is read back from its text. -/
theorem read_pretty (h : IsExact 127 x) : read (pretty x) = .ok x := by
  simpa using read_pretty_append h isBlanks_nil

end Json

end TokenHighlight
