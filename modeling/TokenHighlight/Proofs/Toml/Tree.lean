import TokenHighlight.Proofs.NameMap
import TokenHighlight.Toml.Document

/-!
# How TOML tables grow

Whatever a document adds, it adds at the end of a path: `Changes` says how the tables on the way
change with it.  Pairs and sections are such changes (`addPair_changes`, `addTable_changes`,
`addTables_changes`), and a document is a run of them (`addPairs_cons_eq_some`, `AddsSections`).
-/

namespace TokenHighlight

namespace Toml

variable {path : List String} {name : String} {fields fields' inner inner' : Fields}
  {node : Node} {old? : Option Node} {x : Value} {pairs : List (List String × Value)}

/-! ## Finished tables -/

theorem toFields_eq_map (fields : Fields) :
    Node.toFields fields = fields.map fun f => (f.1, f.2.toValue) := by
  induction fields with
  | nil => rfl
  | cons f fields ih => rw [Node.toFields, Node.toField, ih, List.map_cons]

theorem toItems_eq_map (items : List Fields) :
    Node.toItems items = items.map fun fields => .table (Node.toFields fields) := by
  induction items with
  | nil => rfl
  | cons fields items ih => rw [Node.toItems, ih, List.map_cons]

/-! ## Putting a node into a table -/

namespace Fields

/-- The ways to give a name another node. -/
inductive Puts (name : String) (node : Node) (fields : Fields) : Fields → Prop
  | add (h : fields.lookup name = none) : Puts name node fields (fields.add name node)
  | replace {old : Node} (h : fields.lookup name = some old) :
      Puts name node fields (fields.replace name node)
  | move : Puts name node fields ((fields.remove name).add name node)

theorem lookup_add (h : fields.lookup name = none) (node : Node) (s : String) :
    (fields.add name node).lookup s = if s = name then some node else fields.lookup s := by
  induction fields with
  | nil => rw [add, List.nil_append, lookup_cons_eq_ite]
  | cons f fields ih =>
      rw [lookup_cons_eq_ite] at h
      have hne : name ≠ f.1 := fun heq => by simp [heq] at h
      rw [if_neg hne] at h
      rw [add] at ih
      rw [add, List.cons_append, lookup_cons_eq_ite, lookup_cons_eq_ite, ih h]
      by_cases hs : s = name
      · simp [hs, hne]
      · simp [hs]

theorem lookup_replace {old : Node} (h : fields.lookup name = some old) (node : Node)
    (s : String) :
    (fields.replace name node).lookup s = if s = name then some node else fields.lookup s := by
  induction fields with
  | nil => cases h
  | cons f fields ih =>
      rw [lookup_cons_eq_ite] at h
      unfold replace
      by_cases hf : f.1 = name
      · rw [if_pos hf, lookup_cons_eq_ite, lookup_cons_eq_ite, ← hf]
        split <;> rfl
      · rw [if_neg (Ne.symm hf)] at h
        rw [if_neg hf, lookup_cons_eq_ite, lookup_cons_eq_ite, ih h]
        by_cases hs : s = f.1
        · simp [hs, hf]
        · simp [hs]

theorem lookup_remove (fields : Fields) (name s : String) :
    (fields.remove name).lookup s = if s = name then none else fields.lookup s := by
  induction fields with
  | nil => simp [remove]
  | cons f fields ih =>
      rw [remove] at ih
      rw [remove, List.filter_cons, lookup_cons_eq_ite]
      by_cases hf : f.1 = name
      · rw [if_neg (by simpa using hf), ih, hf]
        split <;> rfl
      · rw [if_pos (by simpa using hf), lookup_cons_eq_ite, ih]
        by_cases hs : s = f.1
        · simp [hs, hf]
        · simp [hs]

theorem Puts.lookup_eq (h : Puts name node fields fields') (s : String) :
    fields'.lookup s = if s = name then some node else fields.lookup s := by
  cases h with
  | add h => exact lookup_add h node s
  | replace h => exact lookup_replace h node s
  | move =>
      have hnone : (fields.remove name).lookup name = none := by rw [lookup_remove, if_pos rfl]
      rw [lookup_add hnone, lookup_remove]
      split <;> rfl

theorem map_fst_replace (name : String) (node : Node) (fields : Fields) :
    (fields.replace name node).map Prod.fst = fields.map Prod.fst := by
  induction fields with
  | nil => rfl
  | cons f fields ih =>
      unfold replace
      split
      · rename_i hf
        rw [List.map_cons, List.map_cons, hf]
      · rw [List.map_cons, List.map_cons, ih]

theorem nodup_add (hnames : (fields.map Prod.fst).Nodup) (h : fields.lookup name = none)
    (node : Node) : ((fields.add name node).map Prod.fst).Nodup := by
  have hnot : name ∉ fields.map Prod.fst := lookup_eq_none_iff_not_mem.1 h
  rw [add, List.map_append, List.nodup_append]
  refine ⟨hnames, List.nodup_singleton _, ?_⟩
  rintro s hs _ (_ | ⟨_, ⟨⟩⟩) rfl
  exact hnot hs

theorem Puts.nodup (h : Puts name node fields fields') (hnames : (fields.map Prod.fst).Nodup) :
    (fields'.map Prod.fst).Nodup := by
  cases h with
  | add h => exact nodup_add hnames h node
  | replace => rwa [map_fst_replace]
  | move =>
      have hnone : (fields.remove name).lookup name = none := by rw [lookup_remove, if_pos rfl]
      exact nodup_add (hnames.sublist (List.filter_sublist.map Prod.fst)) hnone node

end Fields

/-! ## Changes at the end of a path -/

/-- The ways in which a node takes up a table that was made of another one. -/
inductive Node.Grows (inner inner' : Fields) : Option Node → Node → Prop
  | new (origin : Origin) (h : inner = []) : Grows inner inner' none (.table origin inner')
  | table (origin origin' : Origin) :
      Grows inner inner' (some (.table origin inner)) (.table origin' inner')
  | last (items : List Fields) :
      Grows inner inner' (some (.tables (items ++ [inner]))) (.tables (items ++ [inner']))
  | first (h : inner = []) : Grows inner inner' none (.tables [inner'])
  | next (items : List Fields) (h : inner = []) :
      Grows inner inner' (some (.tables items)) (.tables (items ++ [inner']))

/-- The fields with a step made in the table at a path. -/
inductive Fields.Changes (step : Fields → Fields → Prop) : List String → Fields → Fields → Prop
  | here {fields fields' : Fields} (h : step fields fields') : Changes step [] fields fields'
  | inside {name : String} {path : List String} {fields fields' inner inner' : Fields} {node : Node}
      (h : Changes step path inner inner') (hgrows : Node.Grows inner inner' (fields.lookup name) node)
      (hputs : Puts name node fields fields') : Changes step (name :: path) fields fields'

variable {step : Fields → Fields → Prop}

theorem Fields.Changes.append {step' : Fields → Fields → Prop} {path' : List String}
    (h : Changes step path fields fields')
    (hstep : ∀ {fields fields'}, step fields fields' → Changes step' path' fields fields') :
    Changes step' (path ++ path') fields fields' := by
  induction h with
  | here h => exact hstep h
  | inside _ hgrows hputs ih => exact .inside ih hgrows hputs

theorem Fields.Changes.imp {step' : Fields → Fields → Prop} (h : Changes step path fields fields')
    (hstep : ∀ {fields fields'}, step fields fields' → step' fields fields') :
    Changes step' path fields fields' := by
  induction h with
  | here h => exact .here (hstep h)
  | inside _ hgrows hputs ih => exact .inside ih hgrows hputs

namespace Node

variable {dotted : Bool} {f : Origin → Fields → Option Fields} {origin : Origin}

theorem change_cons_eq_some (h : change dotted f (name :: path) origin fields = some fields') :
    ∃ origin inner inner' node, change dotted f path origin inner = some inner' ∧
      Grows inner inner' (fields.lookup name) node ∧ Fields.Puts name node fields fields' := by
  rw [change] at h
  cases hlookup : fields.lookup name with
  | none =>
      simp only [hlookup, Option.map_eq_some_iff] at h
      obtain ⟨inner', hchange, rfl⟩ := h
      exact ⟨_, [], inner', _, hchange, .new _ rfl, .add hlookup⟩
  | some old =>
      cases old with
      | value x => simp [hlookup] at h
      | table origin inner =>
          simp only [hlookup, Option.ite_none_left_eq_some, Option.map_eq_some_iff] at h
          obtain ⟨-, inner', hchange, rfl⟩ := h
          exact ⟨_, inner, inner', _, hchange, .table _ _, .replace hlookup⟩
      | tables items =>
          simp only [hlookup] at h
          cases hlast : items.getLast? with
          | none => simp [hlast] at h
          | some inner =>
              simp only [hlast, Option.map_eq_some_iff] at h
              obtain ⟨inner', hchange, rfl⟩ := h
              obtain ⟨before, rfl⟩ := List.getLast?_eq_some_iff.1 hlast
              rw [List.dropLast_concat]
              exact ⟨_, inner, inner', _, hchange, .last _, .replace hlookup⟩

theorem change_changes (h : change dotted f path origin fields = some fields') :
    Fields.Changes (fun fields fields' => ∃ origin, f origin fields = some fields') path fields
      fields' := by
  induction path generalizing origin fields fields' with
  | nil => exact .here ⟨origin, h⟩
  | cons name path ih =>
      obtain ⟨origin, inner, inner', node, hchange, hgrows, hputs⟩ := change_cons_eq_some h
      exact .inside (ih hchange) hgrows hputs

/-- A pair puts its value into the table at its path. -/
theorem addPair_changes (h : addPair path name x fields = some fields') :
    Fields.Changes (fun fields fields' => fields.lookup name = none ∧
      fields' = fields.add name (.value x)) path fields fields' := by
  refine (change_changes h).imp fun {fields fields'} h => ?_
  obtain ⟨origin, h⟩ := h
  split at h
  · cases h
  · cases hlookup : fields.lookup name with
    | none =>
        simp only [hlookup, Option.some.injEq] at h
        exact ⟨rfl, h.symm⟩
    | some old => simp [hlookup] at h

theorem addPairs_cons_eq_some {key : List String}
    (h : addPairs ((key, x) :: pairs) fields = some fields') :
    ∃ path name added, key = path ++ [name] ∧ addPair path name x fields = some added ∧
      addPairs pairs added = some fields' := by
  obtain ⟨added, hadded, hrest⟩ := Option.bind_eq_some_iff.1 h
  dsimp only at hadded
  cases hname : key.getLast? with
  | none => simp [hname] at hadded
  | some name =>
      simp only [hname] at hadded
      exact ⟨_, name, added, (List.dropLast_append_getLast? name hname).symm, hadded, hrest⟩

/-- The section of a table adds its pairs to the table at the path of the header. -/
theorem addTable_changes (h : addTable path name pairs fields = some fields') :
    Fields.Changes (fun inner inner' => addPairs pairs inner = some inner') (path ++ [name]) fields
      fields' := by
  refine (change_changes h).append fun {fields fields'} h => ?_
  obtain ⟨-, h⟩ := h
  cases hlookup : fields.lookup name with
  | none =>
      simp only [hlookup, Option.map_eq_some_iff] at h
      obtain ⟨inner', hpairs, rfl⟩ := h
      exact .inside (.here hpairs) (hlookup ▸ .new .header rfl) (.add hlookup)
  | some old =>
      cases old with
      | value y => simp [hlookup] at h
      | tables items => simp [hlookup] at h
      | table origin inner =>
          cases origin with
          | header => simp [hlookup] at h
          | dotted => simp [hlookup] at h
          | implied =>
              simp only [hlookup, Option.map_eq_some_iff] at h
              obtain ⟨inner', hpairs, rfl⟩ := h
              exact .inside (.here hpairs) (hlookup ▸ .table _ _) .move

theorem addTables_changes (h : addTables path name pairs fields = some fields') :
    Fields.Changes (fun inner inner' => addPairs pairs inner = some inner') (path ++ [name]) fields
      fields' := by
  refine (change_changes h).append fun {fields fields'} h => ?_
  obtain ⟨-, h⟩ := h
  cases hlookup : fields.lookup name with
  | none =>
      simp only [hlookup, Option.map_eq_some_iff] at h
      obtain ⟨inner', hpairs, rfl⟩ := h
      exact .inside (.here hpairs) (hlookup ▸ .first rfl) (.add hlookup)
  | some old =>
      cases old with
      | value y => simp [hlookup] at h
      | table origin inner => simp [hlookup] at h
      | tables items =>
          simp only [hlookup, Option.map_eq_some_iff] at h
          obtain ⟨inner', hpairs, rfl⟩ := h
          exact .inside (.here hpairs) (hlookup ▸ .next items rfl) (.replace hlookup)

end Node

/-! ## Sections -/

/-- The fields with sections added one after the other.  The header of a section and the pairs behind
it are one change. -/
inductive AddsSections : List Expression → Fields → Fields → Prop
  | nil {fields : Fields} : AddsSections [] fields fields
  | cons {e : Expression} {es : List Expression} {key : List String} {fields added fields' : Fields}
      (he : e = .table key ∨ e = .tables key)
      (hadded : Fields.Changes
        (fun inner inner' => Node.addPairs (leadingPairs es).1 inner = some inner') key fields added)
      (h : AddsSections (leadingPairs es).2 added fields') : AddsSections (e :: es) fields fields'

theorem addsSections_of_addSections {fuel : Nat} {es : List Expression}
    (h : addSections fuel es fields = some fields') : AddsSections es fields fields' := by
  induction fuel generalizing es fields with
  | zero =>
      cases es with
      | nil =>
          obtain rfl := Option.some.inj h
          exact .nil
      | cons e es => cases h
  | succ fuel ih =>
      cases es with
      | nil =>
          obtain rfl := Option.some.inj h
          exact .nil
      | cons e es =>
          obtain ⟨added, hadded, hrest⟩ := Option.bind_eq_some_iff.1 h
          cases e with
          | pair key x => cases hadded
          | table key =>
              obtain ⟨name, hname, hadded⟩ := Option.bind_eq_some_iff.1 hadded
              have hchanges := Node.addTable_changes hadded
              rw [List.dropLast_append_getLast? name hname] at hchanges
              exact .cons (Or.inl rfl) hchanges (ih hrest)
          | tables key =>
              obtain ⟨name, hname, hadded⟩ := Option.bind_eq_some_iff.1 hadded
              have hchanges := Node.addTables_changes hadded
              rw [List.dropLast_append_getLast? name hname] at hchanges
              exact .cons (Or.inr rfl) hchanges (ih hrest)

theorem assemble?_eq_some {es : List Expression} {finished : List (String × Value)}
    (h : assemble? es = some finished) :
    ∃ first fields, Node.addPairs (leadingPairs es).1 [] = some first ∧
      AddsSections (leadingPairs es).2 first fields ∧
      finished = Node.toFields fields := by
  obtain ⟨first, hfirst, h⟩ := Option.bind_eq_some_iff.1 h
  obtain ⟨fields, hfields, h⟩ := Option.bind_eq_some_iff.1 h
  exact ⟨first, fields, hfirst, addsSections_of_addSections hfields, (Option.some.inj h).symm⟩

end Toml

end TokenHighlight
