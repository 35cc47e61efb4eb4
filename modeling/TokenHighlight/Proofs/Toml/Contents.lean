import TokenHighlight.Proofs.Toml.Tree

/-!
# What a TOML document says

`Value.Holds` follows the names from a value to a leaf, and `Writes` collects the pairs of a document
under the headers that they belong to.  The table that is built holds exactly what the document
writes (`holds_assemble?_iff`, `holds_parse?_iff`): no pair is lost and none is added.  Neither the
order of the pairs (`pairsWrite_perm`) nor the choice between dotted keys and inline tables
(`pairsWrite_inline`) makes a difference.
-/

namespace TokenHighlight

namespace Toml

open Node (toFields toValue)

/-! ## The leaves of a value -/

/-- A value that holds nothing under a name.  Arrays in brackets are not looked into. -/
def Value.IsLeaf : Value → Prop
  | .tables _ => False
  | .table _ => False
  | _ => True

/-- The leaves of a value with the names on the way to them.  The tables of an array share their
ways. -/
inductive Value.Holds : Value → List String → Value → Prop
  | leaf {x : Value} (h : x.IsLeaf) : Holds x [] x
  | field {fields : List (String × Value)} {name : String} {path : List String} {x y : Value}
      (hname : fields.lookup name = some x) (h : Holds x path y) :
      Holds (.table fields) (name :: path) y
  | item {items : List Value} {path : List String} {x y : Value} (hx : x ∈ items)
      (h : Holds x path y) : Holds (.tables items) path y

theorem Value.IsLeaf.holds_iff {path : List String} {x y : Value} (h : x.IsLeaf) :
    x.Holds path y ↔ path = [] ∧ y = x := by
  constructor
  · intro hholds
    cases hholds with
    | leaf => exact ⟨rfl, rfl⟩
    | field => cases h
    | item => cases h
  · rintro ⟨rfl, rfl⟩
    exact .leaf h

theorem Value.table_holds_cons_iff {fields : List (String × Value)} {name : String}
    {path : List String} {y : Value} (hnames : (fields.map Prod.fst).Nodup) :
    (Value.table fields).Holds (name :: path) y ↔ ∃ x, (name, x) ∈ fields ∧ x.Holds path y := by
  constructor
  · intro h
    cases h with
    | field hname h => exact ⟨_, (lookup_eq_some_iff_mem hnames).1 hname, h⟩
  · rintro ⟨x, hx, h⟩
    exact .field ((lookup_eq_some_iff_mem hnames).2 hx) h

/-- The leaves of a node when it is finished. -/
def Node.Holds (node : Node) : List String → Value → Prop := node.toValue.Holds

/-- The leaves of a table under construction when it is finished. -/
def Fields.Holds (fields : Fields) : List String → Value → Prop :=
  (Value.table (toFields fields)).Holds

variable {path path' : List String} {name : String} {fields fields' inner inner' : Fields}
  {node : Node} {x y : Value} {pairs : List (List String × Value)}

theorem lookup_toFields (fields : Fields) (name : String) :
    (toFields fields).lookup name = (fields.lookup name).map toValue := by
  induction fields with
  | nil => rfl
  | cons f fields ih =>
      rw [toFields, Node.toField, lookup_cons_eq_ite, lookup_cons_eq_ite, ih]
      split <;> rfl

namespace Fields

theorem not_holds_nil : ¬fields.Holds [] y := by
  rintro ⟨⟨⟩⟩

theorem holds_cons_iff : fields.Holds (name :: path) y ↔
    ∃ node, fields.lookup name = some node ∧ node.Holds path y := by
  constructor
  · intro h
    cases h with
    | field hname h =>
        rw [lookup_toFields, Option.map_eq_some_iff] at hname
        obtain ⟨node, hnode, rfl⟩ := hname
        exact ⟨node, hnode, h⟩
  · rintro ⟨node, hnode, h⟩
    refine .field ?_ h
    rw [lookup_toFields, hnode]
    rfl

theorem not_holds_empty : ¬Fields.Holds [] path y := by
  cases path with
  | nil => exact not_holds_nil
  | cons name path => simp [holds_cons_iff]

end Fields

theorem Node.holds_tables_iff {items : List Fields} :
    (Node.tables items).Holds path y ↔ ∃ fields ∈ items, fields.Holds path y := by
  unfold Node.Holds
  rw [toValue, toItems_eq_map]
  constructor
  · intro h
    cases h with
    | leaf h => cases h
    | item hx h =>
        obtain ⟨fields, hfields, rfl⟩ := List.mem_map.1 hx
        exact ⟨fields, hfields, h⟩
  · rintro ⟨fields, hfields, h⟩
    exact .item (List.mem_map_of_mem hfields) h

/-! ## What is added at a path -/

variable {written written' : List String → Value → Prop}

/-- What is written at paths from a table, seen from above it. -/
def Below (path : List String) (written : List String → Value → Prop) (p : List String)
    (y : Value) : Prop :=
  ∃ q, p = path ++ q ∧ written q y

theorem below_nil : Below [] written = written := by
  funext p y
  simp [Below]

theorem below_append : Below (path ++ path') written = Below path (Below path' written) := by
  funext p y
  simp only [Below, eq_iff_iff]
  constructor
  · rintro ⟨q, rfl, h⟩
    exact ⟨path' ++ q, List.append_assoc .., q, rfl, h⟩
  · rintro ⟨-, rfl, q, rfl, h⟩
    exact ⟨q, (List.append_assoc ..).symm, h⟩

theorem below_singleton_cons_iff {s : String} :
    Below [name] written (s :: path) y ↔ s = name ∧ written path y := by
  simp [Below]

/-- The second table holds what the first one does and what is written, and nothing else. -/
def Fields.Adds (written : List String → Value → Prop) (fields fields' : Fields) : Prop :=
  ∀ path y, fields'.Holds path y ↔ fields.Holds path y ∨ written path y

/-- The second node holds what the first one does, if there is one, and what is written. -/
def Node.Adds (written : List String → Value → Prop) (old? : Option Node) (node : Node) : Prop :=
  ∀ path y, node.Holds path y ↔ (∃ old, old? = some old ∧ old.Holds path y) ∨ written path y

theorem Node.Grows.adds {old? : Option Node} (h : Grows inner inner' old? node)
    (hinner : Fields.Adds written inner inner') : Node.Adds written old? node := by
  intro path y
  have hinner := hinner path y
  cases h with
  | new origin h =>
      subst h
      show inner'.Holds path y ↔ _
      simpa [Fields.not_holds_empty] using hinner
  | table origin origin' =>
      show inner'.Holds path y ↔ _
      rw [hinner]
      simp only [Option.some.injEq, exists_eq_left']
      rfl
  | last items =>
      simp only [holds_tables_iff, List.mem_append, List.mem_singleton, or_and_right, exists_or,
        exists_eq_left, hinner, Option.some.injEq, exists_eq_left', or_assoc]
  | first h =>
      subst h
      simpa [holds_tables_iff, Fields.not_holds_empty] using hinner
  | next items h =>
      subst h
      simp only [Fields.not_holds_empty, false_or] at hinner
      simp only [holds_tables_iff, List.mem_append, List.mem_singleton, or_and_right, exists_or,
        exists_eq_left, hinner, Option.some.injEq, exists_eq_left']

namespace Fields

theorem Puts.adds (h : Puts name node fields fields')
    (hnode : Node.Adds written (fields.lookup name) node) :
    Adds (Below [name] written) fields fields' := by
  intro path y
  cases path with
  | nil => simp [not_holds_nil, Below]
  | cons s path =>
      rw [holds_cons_iff, holds_cons_iff, below_singleton_cons_iff, h.lookup_eq]
      by_cases hs : s = name
      · simp [hs, hnode path y]
      · simp [hs]

/-- What a step adds in the table at a path, it adds below the path. -/
theorem Changes.adds {step : Fields → Fields → Prop} (h : Changes step path fields fields')
    (hstep : ∀ {fields fields'}, step fields fields' → Adds written fields fields') :
    Adds (Below path written) fields fields' := by
  induction h with
  | here h =>
      rw [below_nil]
      exact hstep h
  | @inside name path _ _ _ _ _ _ hgrows hputs ih =>
      have hadds := hputs.adds (hgrows.adds ih)
      rwa [← below_append] at hadds

end Fields

/-! ## What pairs and documents write -/

/-- What pairs write; the values of a pair stand below its key. -/
def PairsWrite (pairs : List (List String × Value)) (path : List String) (y : Value) : Prop :=
  ∃ pair ∈ pairs, Below pair.1 pair.2.Holds path y

/-- The pairs of a document with their whole keys, from a header on. -/
def bindings (header : List String) : List Expression → List (List String × Value)
  | [] => []
  | .pair key x :: es => (header ++ key, x) :: bindings header es
  | .table key :: es => bindings key es
  | .tables key :: es => bindings key es

/-- What a document writes. -/
def Writes (es : List Expression) : List String → Value → Prop := PairsWrite (bindings [] es)

theorem adds_nil (fields : Fields) : Fields.Adds (PairsWrite []) fields fields := by
  intro path y
  simp [PairsWrite]

theorem pairsWrite_cons_iff {pair : List String × Value} : PairsWrite (pair :: pairs) path y ↔
    Below pair.1 pair.2.Holds path y ∨ PairsWrite pairs path y := by
  simp [PairsWrite]

theorem pairsWrite_append_iff {pairs' : List (List String × Value)} :
    PairsWrite (pairs ++ pairs') path y ↔ PairsWrite pairs path y ∨ PairsWrite pairs' path y := by
  simp [PairsWrite, or_and_right, exists_or]

theorem below_pairsWrite (key : List String) (pairs : List (List String × Value)) :
    Below key (PairsWrite pairs) =
      PairsWrite (pairs.map fun pair => (key ++ pair.1, pair.2)) := by
  funext p y
  simp only [PairsWrite, List.mem_map, exists_exists_and_eq_and, below_append, eq_iff_iff]
  constructor
  · rintro ⟨q, rfl, pair, hpair, h⟩
    exact ⟨pair, hpair, q, rfl, h⟩
  · rintro ⟨pair, hpair, q, rfl, h⟩
    exact ⟨q, rfl, pair, hpair, h⟩

theorem bindings_eq_append (header : List String) (es : List Expression) :
    bindings header es = ((leadingPairs es).1.map fun pair => (header ++ pair.1, pair.2)) ++
      bindings header (leadingPairs es).2 := by
  induction es with
  | nil => rfl
  | cons e es ih =>
      cases e with
      | pair key x => rw [bindings, ih, leadingPairs, List.map_cons, List.cons_append]
      | table key => rfl
      | tables key => rfl

theorem addPair_adds (h : Node.addPair path name x fields = some fields') :
    Fields.Adds (Below (path ++ [name]) x.Holds) fields fields' := by
  rw [below_append]
  refine (Node.addPair_changes h).adds ?_
  rintro fields _ ⟨hlookup, rfl⟩
  have hputs : Fields.Puts name (.value x) fields _ := .add hlookup
  refine hputs.adds fun path y => ?_
  show x.Holds path y ↔ _
  simp [hlookup]

theorem addPairs_adds (h : Node.addPairs pairs fields = some fields') :
    Fields.Adds (PairsWrite pairs) fields fields' := by
  induction pairs generalizing fields with
  | nil =>
      obtain rfl := Option.some.inj h
      exact adds_nil fields
  | cons pair pairs ih =>
      obtain ⟨path, name, added, hkey, hadded, hrest⟩ := Node.addPairs_cons_eq_some h
      intro p y
      rw [ih hrest, addPair_adds hadded, pairsWrite_cons_iff, hkey, or_assoc]

theorem AddsSections.adds {es : List Expression} (h : AddsSections es fields fields')
    (header : List String) : Fields.Adds (PairsWrite (bindings header es)) fields fields' := by
  induction h generalizing header with
  | nil => exact adds_nil _
  | @cons e es key _ _ _ he hadded _ ih =>
      have hbindings : bindings header (e :: es) = bindings key es := by
        rcases he with rfl | rfl <;> rfl
      intro p y
      rw [ih key, hadded.adds addPairs_adds, hbindings, bindings_eq_append key es,
        pairsWrite_append_iff, below_pairsWrite, or_assoc]

/-- The table of a document holds exactly what the document writes. -/
theorem holds_assemble?_iff {es : List Expression} {finished : List (String × Value)}
    (h : assemble? es = some finished) :
    (Value.table finished).Holds path y ↔ Writes es path y := by
  obtain ⟨first, fields, hfirst, hfields, rfl⟩ := assemble?_eq_some h
  show fields.Holds path y ↔ _
  rw [hfields.adds [], addPairs_adds hfirst, Writes, bindings_eq_append [] es,
    pairsWrite_append_iff]
  simp [Fields.not_holds_empty]

/-- An inline table holds exactly what its pairs write. -/
theorem holds_inlineTable?_iff (h : inlineTable? pairs = some x) :
    x.Holds path y ↔ PairsWrite pairs path y := by
  obtain ⟨fields, hfields, rfl⟩ := Option.map_eq_some_iff.1 h
  show Fields.Holds fields path y ↔ _
  rw [addPairs_adds hfields]
  simp [Fields.not_holds_empty]

/-! ## Orders and notations -/

theorem pairsWrite_perm {pairs' : List (List String × Value)} (h : pairs.Perm pairs') :
    PairsWrite pairs = PairsWrite pairs' := by
  funext p y
  simp only [PairsWrite, h.mem_iff]

/-- The pairs of an inline table write the same under dotted keys. -/
theorem pairsWrite_inline (h : inlineTable? pairs = some x) (key : List String)
    (others : List (List String × Value)) : PairsWrite ((key, x) :: others) =
      PairsWrite ((pairs.map fun pair => (key ++ pair.1, pair.2)) ++ others) := by
  have hx : x.Holds = PairsWrite pairs := by
    funext p y
    exact propext (holds_inlineTable?_iff h)
  funext p y
  rw [pairsWrite_append_iff, ← below_pairsWrite, ← hx, pairsWrite_cons_iff]

/-! ## Texts -/

/-- The expressions of a text. -/
def expressions? (text : String) : Option (List Expression) :=
  let cs := skipMark text.toList
  readExpressions (cs.length + 1) cs

/-- What a text writes. -/
def TextWrites (text : String) (path : List String) (y : Value) : Prop :=
  ∃ es, expressions? text = some es ∧ Writes es path y

theorem textWrites_iff {text : String} {es : List Expression} (h : expressions? text = some es) :
    TextWrites text path y ↔ Writes es path y := by
  simp [TextWrites, h]

/-- The fields that are read from a text hold exactly what the text writes. -/
theorem holds_parse?_iff {text : String} {finished : List (String × Value)}
    (h : parse? text = some finished) :
    (Value.table finished).Holds path y ↔ TextWrites text path y := by
  obtain ⟨es, hes, h⟩ := Option.bind_eq_some_iff.1 h
  rw [holds_assemble?_iff h, textWrites_iff hes]

end Toml

end TokenHighlight
