import TokenHighlight.Proofs.NameMap
import TokenHighlight.Proofs.Toml.Text
import TokenHighlight.Toml.Document

/-!
# TOML documents written line by line and read

`SpellsLines` is the grammar of the documents whose keys have one part and whose values are strings
and booleans.  What is spelled is read (`SpellsLines.readExpressions_eq`).  If no name stands for
two things, the fields and the tables of such a document are all there, in their order
(`parse?_of_spellsLines`).
-/

namespace TokenHighlight

namespace Toml

variable {cs ks vs line rest : List Char} {es : List Expression}

/-! ## Lines -/

/-- The ways to write a string or a boolean. -/
inductive SpellsScalar : List Char → Value → Prop
  | true : SpellsScalar ['t', 'r', 'u', 'e'] (.boolean true)
  | false : SpellsScalar ['f', 'a', 'l', 's', 'e'] (.boolean false)
  | string (cs : List Char) : SpellsScalar (basicString cs) (.string (String.ofList cs))

/-- The ways to write a pair or the header of a table. -/
inductive SpellsLine : List Char → Expression → Prop
  | pair {ks cs vs : List Char} {x : Value} (hkey : SpellsKey ks cs) (hvalue : SpellsScalar vs x) :
      SpellsLine (ks ++ ' ' :: '=' :: ' ' :: vs ++ ['\n']) (.pair [String.ofList cs] x)
  | table {ks cs : List Char} (hkey : SpellsKey ks cs) :
      SpellsLine ('[' :: ks ++ [']', '\n']) (.table [String.ofList cs])

/-- The ways to write the expressions of a document, with empty lines between them. -/
inductive SpellsLines : List Char → List Expression → Prop
  | nil : SpellsLines [] []
  | blank {cs : List Char} {es : List Expression} (h : SpellsLines cs es) :
      SpellsLines ('\n' :: cs) es
  | cons {line cs : List Char} {e : Expression} {es : List Expression} (he : SpellsLine line e)
      (h : SpellsLines cs es) : SpellsLines (line ++ cs) (e :: es)

theorem lineEnd?_newline (rest : List Char) : lineEnd? ('\n' :: rest) = some rest := rfl

theorem readValue_quote (fuel depth : Nat) (cs : List Char) :
    readValue (fuel + 1) depth ('"' :: cs) =
      (readString ('"' :: cs)).map fun p => (.string (String.ofList p.1), p.2) := by
  rw [readValue, if_pos (Or.inl rfl)]
  all_goals simp

theorem SpellsScalar.readValue_append {x : Value} (h : SpellsScalar vs x) (fuel depth : Nat)
    (rest : List Char) :
    readValue (fuel + 1) depth (vs ++ '\n' :: rest) = some (x, '\n' :: rest) := by
  cases h with
  | true => simp [readValue]
  | false => simp [readValue]
  | string cs =>
      have hread : readString (basicString cs ++ '\n' :: rest) = some (cs, '\n' :: rest) :=
        readString_basicString_append cs (by simp)
      rw [basicString, List.cons_append, List.cons_append] at hread ⊢
      rw [readValue_quote, hread]
      rfl

theorem SpellsScalar.skipBlanks_append {x : Value} (h : SpellsScalar vs x) (rest : List Char) :
    skipBlanks (' ' :: (vs ++ rest)) = vs ++ rest := by
  cases h <;> exact skipBlanks_space_cons rfl _

theorem readPair_append {x : Value} (hkey : SpellsKey ks cs) (hvalue : SpellsScalar vs x)
    (rest : List Char) : readPair (ks ++ ' ' :: '=' :: ' ' :: (vs ++ '\n' :: rest)) =
      some (.pair [String.ofList cs] x, rest) := by
  have hequals : ∀ ds, skipBlanks (' ' :: '=' :: ds) = '=' :: ds := skipBlanks_space_cons rfl
  simp only [readPair, hkey.readKey_append rfl (hequals _) (by decide), hvalue.skipBlanks_append,
    hvalue.readValue_append, lineEnd?_newline, Option.map_some]

theorem readHeader_append (hkey : SpellsKey ks cs) (rest : List Char) :
    readHeader (ks ++ ']' :: '\n' :: rest) = some (.table [String.ofList cs], rest) := by
  have hread : readKey (ks ++ ']' :: '\n' :: rest) =
      some ([String.ofList cs], ']' :: '\n' :: rest) := hkey.readKey_append rfl rfl (by decide)
  obtain ⟨c, ds, rfl, hc⟩ := hkey.exists_eq_cons
  rw [readHeader, hread]
  · rfl
  · rintro es hes
    exact ne_of_startsKey hc rfl (List.cons.inj hes).1

theorem readExpressions_of_startsKey {c : Char} (hc : startsKey c) (fuel : Nat) (cs : List Char) :
    readExpressions (fuel + 1) (c :: cs) =
      (readPair (c :: cs)).bind fun p => (readExpressions fuel p.2).map (p.1 :: ·) := by
  have hline : c ≠ '\n' ∧ c ≠ '\r' := ⟨ne_of_startsKey hc rfl, ne_of_startsKey hc rfl⟩
  have hcomment : c ≠ '#' := ne_of_startsKey hc rfl
  have hheader : c ≠ '[' := ne_of_startsKey hc rfl
  cases hread : readPair (c :: cs) <;>
    simp [readExpressions, skipBlanks_cons (isBlank_of_startsKey hc), hline, hcomment, hheader,
      hread]

theorem readExpressions_header (fuel : Nat) (cs : List Char) :
    readExpressions (fuel + 1) ('[' :: cs) =
      (readHeader cs).bind fun p => (readExpressions fuel p.2).map (p.1 :: ·) := by
  cases hread : readHeader cs <;> simp [readExpressions, skipBlanks_cons (c := '[') rfl, hread]

theorem SpellsLine.readExpressions_append {e : Expression} (h : SpellsLine line e) (fuel : Nat)
    (rest : List Char) :
    readExpressions (fuel + 1) (line ++ rest) = (readExpressions fuel rest).map (e :: ·) := by
  cases h with
  | pair hkey hvalue =>
      have hread := readPair_append hkey hvalue rest
      obtain ⟨c, ds, rfl, hc⟩ := hkey.exists_eq_cons
      simp only [List.cons_append, List.append_assoc, List.nil_append] at hread ⊢
      rw [readExpressions_of_startsKey hc, hread]
      rfl
  | table hkey =>
      simp only [List.cons_append, List.append_assoc, List.nil_append]
      rw [readExpressions_header, readHeader_append hkey]
      rfl

theorem SpellsLine.length_pos {e : Expression} (h : SpellsLine line e) : 0 < line.length := by
  cases h with
  | pair => rw [List.length_append]; exact Nat.succ_pos _
  | table => exact Nat.succ_pos _

theorem SpellsLines.readExpressions_eq (h : SpellsLines cs es) {fuel : Nat}
    (hfuel : cs.length < fuel) : readExpressions fuel cs = some es := by
  induction h generalizing fuel with
  | nil =>
      obtain ⟨fuel, rfl⟩ : ∃ n, fuel = n + 1 := ⟨fuel - 1, by omega⟩
      rfl
  | blank h ih =>
      obtain ⟨fuel, rfl⟩ : ∃ n, fuel = n + 1 := ⟨fuel - 1, by omega⟩
      exact ih (by simpa using hfuel)
  | cons he h ih =>
      have hpos := he.length_pos
      rw [List.length_append] at hfuel
      obtain ⟨fuel, rfl⟩ : ∃ n, fuel = n + 1 := ⟨fuel - 1, by omega⟩
      rw [he.readExpressions_append, ih (by omega)]
      rfl

theorem skipMark_of_startsKey {c : Char} (hc : startsKey c) (cs : List Char) :
    skipMark (c :: cs) = c :: cs := by
  have hne : c ≠ '\uFEFF' := ne_of_startsKey hc rfl
  have hmark : c.toNat ≠ 0xFEFF := by
    intro h
    apply hne
    rw [← Char.ofNat_toNat c, h]
  rw [skipMark, if_neg hmark]

theorem SpellsLines.skipMark_eq (h : SpellsLines cs es) : skipMark cs = cs := by
  cases h with
  | nil => rfl
  | blank => rfl
  | cons he =>
      cases he with
      | pair hkey =>
          obtain ⟨c, ds, rfl, hc⟩ := hkey.exists_eq_cons
          exact skipMark_of_startsKey hc _
      | table => rfl

/-! ## Tables -/

/-- A pair for a field. -/
def Expression.ofField (f : String × Value) : Expression := .pair [f.1] f.2

/-- A table with its fields. -/
def Expression.ofTable (t : String × List (String × Value)) : List Expression :=
  .table [t.1] :: t.2.map ofField

/-- Fields whose values are finished. -/
def Fields.ofValues (fs : List (String × Value)) : Fields := fs.map fun f => (f.1, .value f.2)

/-- Tables whose values are finished. -/
def Fields.ofTables (ts : List (String × List (String × Value))) : Fields :=
  ts.map fun t => (t.1, .table .header (ofValues t.2))

theorem addPair_of_lookup_eq_none {name : String} {fields : Fields}
    (h : fields.lookup name = none) (x : Value) :
    Node.addPair [] name x fields = some (Fields.add name (.value x) fields) := by
  simp [Node.addPair, Node.change, h]

theorem addPairs_singleton_cons (name : String) (x : Value) (pairs : List (List String × Value))
    (fields : Fields) : Node.addPairs (([name], x) :: pairs) fields =
      (Node.addPair [] name x fields).bind (Node.addPairs pairs) := rfl

theorem addPairs_ofValues {fs : List (String × Value)} {fields : Fields}
    (h : (fields.map Prod.fst ++ fs.map Prod.fst).Nodup) :
    Node.addPairs (fs.map fun f => ([f.1], f.2)) fields = some (fields ++ Fields.ofValues fs) := by
  induction fs generalizing fields with
  | nil => simp [Node.addPairs, Fields.ofValues]
  | cons f fs ih =>
      have hnone : fields.lookup f.1 = none := by
        rw [lookup_eq_none_iff_not_mem]
        intro hmem
        exact (List.nodup_append.1 h).2.2 _ hmem _ List.mem_cons_self rfl
      rw [List.map_cons, addPairs_singleton_cons, addPair_of_lookup_eq_none hnone, Option.bind_some,
        ih (by simpa [Fields.add] using h)]
      simp [Fields.add, Fields.ofValues]

theorem addTable_ofValues {name : String} {fs : List (String × Value)} {fields : Fields}
    (hname : fields.lookup name = none) (h : (fs.map Prod.fst).Nodup) :
    Node.addTable [] name (fs.map fun f => ([f.1], f.2)) fields =
      some (fields ++ [(name, .table .header (Fields.ofValues fs))]) := by
  have hpairs : Node.addPairs (fs.map fun f => ([f.1], f.2)) [] =
      some ([] ++ Fields.ofValues fs) := addPairs_ofValues h
  simp [Node.addTable, Node.change, hname, hpairs, Fields.add]

theorem leadingPairs_append (fs : List (String × Value))
    (ts : List (String × List (String × Value))) :
    leadingPairs (fs.map Expression.ofField ++ ts.flatMap Expression.ofTable) =
      (fs.map fun f => ([f.1], f.2), ts.flatMap Expression.ofTable) := by
  induction fs with
  | nil => cases ts <;> rfl
  | cons f fs ih =>
      rw [List.map_cons, List.cons_append, Expression.ofField, leadingPairs, ih]
      rfl

theorem addSections_ofTable {ts : List (String × List (String × Value))} {fields : Fields}
    (hnames : (fields.map Prod.fst ++ ts.map Prod.fst).Nodup)
    (hfields : ∀ t ∈ ts, (t.2.map Prod.fst).Nodup) {fuel : Nat} (hfuel : ts.length ≤ fuel) :
    addSections fuel (ts.flatMap Expression.ofTable) fields =
      some (fields ++ Fields.ofTables ts) := by
  induction ts generalizing fields fuel with
  | nil => simp [addSections, Fields.ofTables]
  | cons t ts ih =>
      obtain ⟨fuel, rfl⟩ : ∃ n, fuel = n + 1 := ⟨fuel - 1, by simp at hfuel; omega⟩
      have hnone : fields.lookup t.1 = none := by
        rw [lookup_eq_none_iff_not_mem]
        intro hmem
        exact (List.nodup_append.1 hnames).2.2 _ hmem _ List.mem_cons_self rfl
      have hadd := addTable_ofValues hnone (hfields t List.mem_cons_self)
      have hrest : ∀ u ∈ ts, (u.2.map Prod.fst).Nodup := fun u hu =>
        hfields u (List.mem_cons_of_mem t hu)
      rw [List.flatMap_cons, Expression.ofTable, List.cons_append, addSections,
        leadingPairs_append]
      show (Node.addTable [] t.1 (t.2.map fun f => ([f.1], f.2)) fields).bind _ = _
      rw [hadd, Option.bind_some, ih (by simpa using hnames) hrest (Nat.le_of_succ_le_succ hfuel)]
      simp [Fields.ofTables]

theorem toFields_ofValues (fs : List (String × Value)) :
    Node.toFields (Fields.ofValues fs) = fs := by
  induction fs with
  | nil => rfl
  | cons f fs ih =>
      show Node.toField (f.1, .value f.2) :: Node.toFields (Fields.ofValues fs) = f :: fs
      rw [ih]
      rfl

theorem toFields_append (fs gs : Fields) :
    Node.toFields (fs ++ gs) = Node.toFields fs ++ Node.toFields gs := by
  induction fs with
  | nil => rfl
  | cons f fs ih =>
      rw [List.cons_append, Node.toFields, Node.toFields, ih, List.cons_append]

theorem toFields_ofTables (ts : List (String × List (String × Value))) :
    Node.toFields (Fields.ofTables ts) = ts.map fun t => (t.1, .table t.2) := by
  induction ts with
  | nil => rfl
  | cons t ts ih =>
      show (t.1, Value.table (Node.toFields (Fields.ofValues t.2))) ::
        Node.toFields (Fields.ofTables ts) = _
      rw [toFields_ofValues, ih, List.map_cons]

theorem length_le_length_flatMap_ofTable (ts : List (String × List (String × Value))) :
    ts.length ≤ (ts.flatMap Expression.ofTable).length := by
  induction ts with
  | nil => exact Nat.le_refl 0
  | cons t ts ih =>
      rw [List.flatMap_cons, List.length_append, Expression.ofTable, List.length_cons,
        List.length_cons]
      omega

theorem assemble?_ofField_ofTable {fs : List (String × Value)}
    {ts : List (String × List (String × Value))}
    (hnames : (fs.map Prod.fst ++ ts.map Prod.fst).Nodup)
    (hfields : ∀ t ∈ ts, (t.2.map Prod.fst).Nodup) :
    assemble? (fs.map Expression.ofField ++ ts.flatMap Expression.ofTable) =
      some (fs ++ ts.map fun t => (t.1, .table t.2)) := by
  have hpairs : Node.addPairs (fs.map fun f => ([f.1], f.2)) [] =
      some ([] ++ Fields.ofValues fs) := addPairs_ofValues (List.nodup_append.1 hnames).1
  have hsame : (Fields.ofValues fs).map Prod.fst = fs.map Prod.fst := by simp [Fields.ofValues]
  have hkept : ((Fields.ofValues fs).map Prod.fst ++ ts.map Prod.fst).Nodup := by rwa [hsame]
  have hsections := addSections_ofTable hkept hfields (length_le_length_flatMap_ofTable ts)
  rw [assemble?, leadingPairs_append]
  show ((Node.addPairs (fs.map fun f => ([f.1], f.2)) []).bind fun fields =>
    (addSections _ _ fields).bind fun fields => some (Node.toFields fields)) = _
  rw [hpairs, List.nil_append, Option.bind_some, hsections, Option.bind_some, toFields_append,
    toFields_ofValues, toFields_ofTables]

/-- A document of fields and tables whose names differ is read as these fields and tables. -/
theorem parse?_of_spellsLines {fs : List (String × Value)}
    {ts : List (String × List (String × Value))}
    (h : SpellsLines cs (fs.map Expression.ofField ++ ts.flatMap Expression.ofTable))
    (hnames : (fs.map Prod.fst ++ ts.map Prod.fst).Nodup)
    (hfields : ∀ t ∈ ts, (t.2.map Prod.fst).Nodup) :
    parse? (String.ofList cs) = some (fs ++ ts.map fun t => (t.1, .table t.2)) := by
  rw [parse?, String.toList_ofList, h.skipMark_eq, h.readExpressions_eq (Nat.lt_succ_self _)]
  exact assemble?_ofField_ofTable hnames hfields

end Toml

end TokenHighlight
