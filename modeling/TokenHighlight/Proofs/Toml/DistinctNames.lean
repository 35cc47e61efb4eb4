import TokenHighlight.Proofs.Toml.Tree

/-!
# The names in a TOML document

No table of a document has two fields of one name, whether it is made by headers, by dotted keys or
inline (`hasDistinctNames_parse?`).  Building a table keeps this (`Fields.Changes.hasDistinctNames`),
and the readers of values only build inline tables (`readsDistinctNames`).
-/

namespace TokenHighlight

namespace Toml

/-! ## Values -/

/-- A value without parts. -/
def Value.IsScalar : Value → Prop
  | .array _ => False
  | .tables _ => False
  | .table _ => False
  | _ => True

/-- No table in the value has two fields of one name. -/
inductive Value.HasDistinctNames : Value → Prop
  | scalar {x : Value} (h : x.IsScalar) : HasDistinctNames x
  | array {items : List Value} (h : ∀ x ∈ items, HasDistinctNames x) :
      HasDistinctNames (.array items)
  | tables {items : List Value} (h : ∀ x ∈ items, HasDistinctNames x) :
      HasDistinctNames (.tables items)
  | table {fields : List (String × Value)} (hnames : (fields.map Prod.fst).Nodup)
      (h : ∀ f ∈ fields, HasDistinctNames f.2) : HasDistinctNames (.table fields)

theorem Value.hasDistinctNames_table_iff {fields : List (String × Value)} :
    (Value.table fields).HasDistinctNames ↔
      (fields.map Prod.fst).Nodup ∧ ∀ f ∈ fields, f.2.HasDistinctNames := by
  constructor
  · intro h
    cases h with
    | scalar h => cases h
    | table hnames h => exact ⟨hnames, h⟩
  · rintro ⟨hnames, h⟩
    exact .table hnames h

/-- No table in the node has two fields of one name. -/
def Node.HasDistinctNames (node : Node) : Prop := node.toValue.HasDistinctNames

/-- No table from this one on has two fields of one name. -/
def Fields.HasDistinctNames (fields : Fields) : Prop :=
  (Value.table (Node.toFields fields)).HasDistinctNames

variable {path : List String} {name : String} {fields fields' inner inner' : Fields} {node : Node}
  {x : Value} {pairs : List (List String × Value)} {p : Value × List Char}

/-! ## Tables under construction -/

theorem Fields.hasDistinctNames_iff : fields.HasDistinctNames ↔
    (fields.map Prod.fst).Nodup ∧ ∀ f ∈ fields, f.2.HasDistinctNames := by
  unfold Fields.HasDistinctNames
  rw [toFields_eq_map, Value.hasDistinctNames_table_iff, List.map_map, List.forall_mem_map]
  rfl

theorem Fields.hasDistinctNames_nil : Fields.HasDistinctNames [] :=
  hasDistinctNames_iff.2 ⟨List.nodup_nil, by simp⟩

theorem Node.hasDistinctNames_tables_iff {items : List Fields} :
    (Node.tables items).HasDistinctNames ↔ ∀ fields ∈ items, fields.HasDistinctNames := by
  unfold Node.HasDistinctNames
  rw [Node.toValue, toItems_eq_map]
  constructor
  · intro h fields hfields
    cases h with
    | scalar h => cases h
    | tables h => exact h _ (List.mem_map_of_mem hfields)
  · intro h
    refine .tables fun x hx => ?_
    obtain ⟨fields, hfields, rfl⟩ := List.mem_map.1 hx
    exact h fields hfields

theorem Node.Grows.hasDistinctNames {old? : Option Node} (h : Grows inner inner' old? node)
    (hold : ∀ old, old? = some old → old.HasDistinctNames)
    (hinner : inner.HasDistinctNames → inner'.HasDistinctNames) : node.HasDistinctNames := by
  cases h with
  | new origin h =>
      subst h
      exact hinner Fields.hasDistinctNames_nil
  | table origin origin' => exact hinner (hold _ rfl)
  | last items =>
      have hitems := hasDistinctNames_tables_iff.1 (hold _ rfl)
      rw [hasDistinctNames_tables_iff]
      simp only [List.forall_mem_append, List.forall_mem_singleton] at hitems ⊢
      exact ⟨hitems.1, hinner hitems.2⟩
  | first h =>
      subst h
      rw [hasDistinctNames_tables_iff]
      simpa using hinner Fields.hasDistinctNames_nil
  | next items h =>
      subst h
      have hitems := hasDistinctNames_tables_iff.1 (hold _ rfl)
      rw [hasDistinctNames_tables_iff]
      simp only [List.forall_mem_append, List.forall_mem_singleton]
      exact ⟨hitems, hinner Fields.hasDistinctNames_nil⟩

namespace Fields

theorem mem_of_mem_replace {f : String × Node} (h : f ∈ fields.replace name node) :
    f = (name, node) ∨ f ∈ fields := by
  induction fields with
  | nil => cases h
  | cons g fields ih =>
      unfold replace at h
      split at h
      · rcases List.mem_cons.1 h with h | h
        · exact Or.inl h
        · exact Or.inr (List.mem_cons_of_mem _ h)
      · rcases List.mem_cons.1 h with rfl | h
        · exact Or.inr List.mem_cons_self
        · exact (ih h).imp_right (List.mem_cons_of_mem _)

theorem Puts.eq_or_mem (h : Puts name node fields fields') {f : String × Node} (hf : f ∈ fields') :
    f = (name, node) ∨ f ∈ fields := by
  cases h with
  | add =>
      rw [Fields.add, List.mem_append, List.mem_singleton] at hf
      exact hf.symm
  | replace => exact mem_of_mem_replace hf
  | move =>
      rw [Fields.add, List.mem_append, List.mem_singleton] at hf
      exact hf.symm.imp_right fun h => (List.mem_filter.1 h).1

theorem Puts.hasDistinctNames (h : Puts name node fields fields')
    (hnode : node.HasDistinctNames) (hfields : fields.HasDistinctNames) :
    fields'.HasDistinctNames := by
  rw [hasDistinctNames_iff] at hfields ⊢
  refine ⟨h.nodup hfields.1, fun f hf => ?_⟩
  rcases h.eq_or_mem hf with rfl | hf
  · exact hnode
  · exact hfields.2 f hf

/-- If a step leaves names distinct, then so does the step at a path. -/
theorem Changes.hasDistinctNames {step : Fields → Fields → Prop}
    (h : Changes step path fields fields')
    (hstep : ∀ {fields fields'}, step fields fields' → fields.HasDistinctNames →
      fields'.HasDistinctNames)
    (hfields : fields.HasDistinctNames) : fields'.HasDistinctNames := by
  induction h with
  | here h => exact hstep h hfields
  | inside _ hgrows hputs ih =>
      refine hputs.hasDistinctNames (hgrows.hasDistinctNames (fun old hold => ?_) ih) hfields
      rw [hasDistinctNames_iff] at hfields
      exact hfields.2 _ ((lookup_eq_some_iff_mem hfields.1).1 hold)

end Fields

theorem hasDistinctNames_addPairs (h : Node.addPairs pairs fields = some fields')
    (hpairs : ∀ pair ∈ pairs, pair.2.HasDistinctNames) (hfields : fields.HasDistinctNames) :
    fields'.HasDistinctNames := by
  induction pairs generalizing fields with
  | nil =>
      obtain rfl := Option.some.inj h
      exact hfields
  | cons pair pairs ih =>
      obtain ⟨path, name, added, -, hadded, hrest⟩ := Node.addPairs_cons_eq_some h
      rw [List.forall_mem_cons] at hpairs
      refine ih hrest hpairs.2 ((Node.addPair_changes hadded).hasDistinctNames ?_ hfields)
      rintro fields _ ⟨hlookup, rfl⟩ hfields
      exact (Fields.Puts.add hlookup).hasDistinctNames hpairs.1 hfields

theorem hasDistinctNames_inlineTable? (h : inlineTable? pairs = some x)
    (hpairs : ∀ pair ∈ pairs, pair.2.HasDistinctNames) : x.HasDistinctNames := by
  obtain ⟨fields, hfields, rfl⟩ := Option.map_eq_some_iff.1 h
  exact hasDistinctNames_addPairs hfields hpairs Fields.hasDistinctNames_nil

/-! ## Numbers -/

theorem isScalar_of_integer? {n : Int} (h : integer? n = some x) : x.IsScalar := by
  obtain ⟨-, h⟩ := Option.ite_none_right_eq_some.1 h
  obtain rfl := Option.some.inj h
  trivial

theorem isScalar_of_float? {negative : Bool} {digits : Nat} {exponent : Int}
    (h : float? negative digits exponent = some x) : x.IsScalar := by
  unfold float? at h
  split at h
  · cases h
  · cases h
    trivial

theorem isScalar_of_map {x? : Option Value} {rest : List Char}
    (h : x?.map (fun x => (x, rest)) = some p) (hx : ∀ x, x? = some x → x.IsScalar) :
    p.1.IsScalar := by
  obtain ⟨x, hx?, rfl⟩ := Option.map_eq_some_iff.1 h
  exact hx x hx?

theorem isScalar_of_readRadix {base : Nat} {cs : List Char} (h : readRadix base cs = some p) :
    p.1.IsScalar := by
  unfold readRadix at h
  split at h
  · cases h
  · exact isScalar_of_map h fun x => isScalar_of_integer?

theorem isScalar_of_readTail {negative : Bool} {ds cs : List Char}
    (h : readTail negative ds cs = some p) : p.1.IsScalar := by
  unfold readTail at h
  repeat' split at h
  all_goals first
    | cases h
    | exact isScalar_of_map h fun x => isScalar_of_integer?
    | exact isScalar_of_map h fun x => isScalar_of_float?

theorem isScalar_of_readUnsigned {negative : Bool} {cs : List Char}
    (h : readUnsigned negative cs = some p) : p.1.IsScalar := by
  unfold readUnsigned at h
  split at h
  · cases h
    trivial
  · cases h
    trivial
  · split at h
    · cases h
    · exact isScalar_of_readTail h

theorem isScalar_of_readDatetime {year : Nat} {cs : List Char}
    (h : readDatetime year cs = some p) : p.1.IsScalar := by
  obtain ⟨⟨date, cs⟩, -, h⟩ := Option.bind_eq_some_iff.1 h
  dsimp only at h
  split at h
  · split at h
    · obtain ⟨⟨time, rest⟩, -, h⟩ := Option.bind_eq_some_iff.1 h
      obtain ⟨⟨offset?, rest⟩, -, h⟩ := Option.bind_eq_some_iff.1 h
      obtain rfl := Option.some.inj h
      trivial
    · obtain rfl := Option.some.inj h
      trivial
  · obtain rfl := Option.some.inj h
    trivial

theorem isScalar_of_readNumber {cs : List Char} (h : readNumber cs = some p) : p.1.IsScalar := by
  unfold readNumber at h
  split at h
  · exact isScalar_of_readDatetime h
  split at h
  · obtain ⟨⟨time, rest⟩, -, rfl⟩ := Option.map_eq_some_iff.1 h
    trivial
  split at h
  · exact isScalar_of_readRadix h
  · exact isScalar_of_readRadix h
  · exact isScalar_of_readRadix h
  · exact isScalar_of_readUnsigned h

/-! ## Readers of values -/

/-- What is read in at most so many steps has distinct names. -/
structure ReadsDistinctNames (fuel : Nat) : Prop where
  value : ∀ {depth cs x rest}, readValue fuel depth cs = some (x, rest) → x.HasDistinctNames
  items : ∀ {depth cs items rest}, readItems fuel depth cs = some (items, rest) →
    ∀ x ∈ items, x.HasDistinctNames
  pairs : ∀ {depth cs pairs rest}, readPairs fuel depth cs = some (pairs, rest) →
    ∀ pair ∈ pairs, pair.2.HasDistinctNames
  morePairs : ∀ {depth cs pairs rest}, readMorePairs fuel depth cs = some (pairs, rest) →
    ∀ pair ∈ pairs, pair.2.HasDistinctNames

namespace ReadsDistinctNames

variable {fuel depth : Nat} {cs rest : List Char} {items : List Value}

theorem value_succ (ih : ReadsDistinctNames fuel)
    (h : readValue (fuel + 1) depth cs = some (x, rest)) : x.HasDistinctNames := by
  unfold readValue at h
  split at h
  · cases h
  · split at h
    · cases h
    · split at h
      · cases h
      · rename_i hitems
        cases h
        exact .array (ih.items hitems)
  · split at h
    · cases h
    · split at h
      · cases h
      · rename_i hpairs
        obtain ⟨x, hx, ⟨⟩⟩ := Option.map_eq_some_iff.1 h
        exact hasDistinctNames_inlineTable? hx (ih.pairs hpairs)
  · cases h
    exact .scalar trivial
  · cases h
    exact .scalar trivial
  · split at h
    · obtain ⟨⟨s, rest⟩, -, ⟨⟩⟩ := Option.map_eq_some_iff.1 h
      exact .scalar trivial
    · exact .scalar (isScalar_of_readNumber h)

theorem items_succ (ih : ReadsDistinctNames fuel)
    (h : readItems (fuel + 1) depth cs = some (items, rest)) :
    ∀ x ∈ items, x.HasDistinctNames := by
  rw [readItems] at h
  split at h
  · cases h
  · cases h
    simp
  · split at h
    · cases h
    · rename_i hx
      have hvalue := ih.value hx
      split at h
      · cases h
        simpa using hvalue
      · obtain ⟨⟨xs, rest⟩, hxs, ⟨⟩⟩ := Option.map_eq_some_iff.1 h
        exact List.forall_mem_cons.2 ⟨hvalue, ih.items hxs⟩
      · cases h

theorem pairs_succ (ih : ReadsDistinctNames fuel)
    (h : readPairs (fuel + 1) depth cs = some (pairs, rest)) :
    ∀ pair ∈ pairs, pair.2.HasDistinctNames := by
  rw [readPairs] at h
  split at h
  · cases h
    simp
  · exact ih.morePairs h

theorem morePairs_succ (ih : ReadsDistinctNames fuel)
    (h : readMorePairs (fuel + 1) depth cs = some (pairs, rest)) :
    ∀ pair ∈ pairs, pair.2.HasDistinctNames := by
  rw [readMorePairs] at h
  split at h
  · split at h
    · cases h
    · rename_i hx
      have hvalue := ih.value hx
      split at h
      · cases h
        simpa using hvalue
      · obtain ⟨⟨ps, rest⟩, hps, ⟨⟩⟩ := Option.map_eq_some_iff.1 h
        exact List.forall_mem_cons.2 ⟨hvalue, ih.morePairs hps⟩
      · cases h
  · cases h

end ReadsDistinctNames

theorem readsDistinctNames (fuel : Nat) : ReadsDistinctNames fuel := by
  induction fuel with
  | zero => exact ⟨by simp [readValue], by simp [readItems], by simp [readPairs], by simp [readMorePairs]⟩
  | succ fuel ih => exact ⟨ih.value_succ, ih.items_succ, ih.pairs_succ, ih.morePairs_succ⟩

/-! ## Documents -/

/-- What a line says has distinct names. -/
def Expression.HasDistinctNames : Expression → Prop
  | .pair _ x => x.HasDistinctNames
  | .table _ => True
  | .tables _ => True

theorem hasDistinctNames_readPair {cs rest : List Char} {e : Expression}
    (h : readPair cs = some (e, rest)) : e.HasDistinctNames := by
  unfold readPair at h
  split at h
  · split at h
    · cases h
    · rename_i hx
      obtain ⟨rest, -, ⟨⟩⟩ := Option.map_eq_some_iff.1 h
      exact (readsDistinctNames _).value hx
  · cases h

theorem hasDistinctNames_readHeader {cs rest : List Char} {e : Expression}
    (h : readHeader cs = some (e, rest)) : e.HasDistinctNames := by
  unfold readHeader at h
  split at h
  · split at h
    · obtain ⟨rest, -, ⟨⟩⟩ := Option.map_eq_some_iff.1 h
      trivial
    · cases h
  · split at h
    · obtain ⟨rest, -, ⟨⟩⟩ := Option.map_eq_some_iff.1 h
      trivial
    · cases h

theorem hasDistinctNames_readExpressions {fuel : Nat} {cs : List Char} {es : List Expression}
    (h : readExpressions fuel cs = some es) : ∀ e ∈ es, e.HasDistinctNames := by
  induction fuel generalizing cs es with
  | zero =>
      obtain ⟨-, h⟩ := Option.ite_none_right_eq_some.1 h
      obtain rfl := Option.some.inj h
      simp
  | succ fuel ih =>
      rw [readExpressions] at h
      split at h
      · cases h
        simp
      · exact ih h
      · exact ih h
      · split at h
        · cases h
        · exact ih h
      · split at h
        · cases h
        · rename_i he
          obtain ⟨es, hes, rfl⟩ := Option.map_eq_some_iff.1 h
          exact List.forall_mem_cons.2 ⟨hasDistinctNames_readHeader he, ih hes⟩
      · split at h
        · cases h
        · rename_i he
          obtain ⟨es, hes, rfl⟩ := Option.map_eq_some_iff.1 h
          exact List.forall_mem_cons.2 ⟨hasDistinctNames_readPair he, ih hes⟩

theorem leadingPairs_hasDistinctNames {es : List Expression} (h : ∀ e ∈ es, e.HasDistinctNames) :
    (∀ pair ∈ (leadingPairs es).1, pair.2.HasDistinctNames) ∧
      ∀ e ∈ (leadingPairs es).2, e.HasDistinctNames := by
  induction es with
  | nil => simp [leadingPairs]
  | cons e es ih =>
      cases e with
      | pair key x =>
          rw [List.forall_mem_cons] at h
          obtain ⟨hpairs, hrest⟩ := ih h.2
          exact ⟨List.forall_mem_cons.2 ⟨h.1, hpairs⟩, hrest⟩
      | table key => exact ⟨by simp [leadingPairs], h⟩
      | tables key => exact ⟨by simp [leadingPairs], h⟩

theorem AddsSections.hasDistinctNames {es : List Expression} (h : AddsSections es fields fields')
    (hes : ∀ e ∈ es, e.HasDistinctNames) (hfields : fields.HasDistinctNames) :
    fields'.HasDistinctNames := by
  induction h with
  | nil => exact hfields
  | cons _ hadded _ ih =>
      obtain ⟨hpairs, hes⟩ := leadingPairs_hasDistinctNames (List.forall_mem_cons.1 hes).2
      refine ih hes (hadded.hasDistinctNames ?_ hfields)
      intro fields fields' hadd hfields
      exact hasDistinctNames_addPairs hadd hpairs hfields

/-- No table of a document has two fields of one name. -/
theorem hasDistinctNames_parse? {text : String} {finished : List (String × Value)}
    (h : parse? text = some finished) : (Value.table finished).HasDistinctNames := by
  obtain ⟨es, hes, h⟩ := Option.bind_eq_some_iff.1 h
  obtain ⟨first, fields, hfirst, hfields, rfl⟩ := assemble?_eq_some h
  obtain ⟨hpairs, hrest⟩ := leadingPairs_hasDistinctNames (hasDistinctNames_readExpressions hes)
  exact hfields.hasDistinctNames hrest
    (hasDistinctNames_addPairs hfirst hpairs Fields.hasDistinctNames_nil)

end Toml

end TokenHighlight
