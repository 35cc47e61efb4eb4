import TokenHighlight.Config.Toml
import TokenHighlight.Proofs.NameMap

/-!
# The fields of a configuration

A configuration is read from its fields one after the other.  All of them count: the fields are
accepted exactly if each of them is (`exists_readFields_eq_ok_iff`), and then the configuration has
the values that they give (`isReadFrom_of_readFields`, `get?_of_readTable`).
-/

namespace TokenHighlight

/-! ## Names of classifications -/

namespace Classification

variable {c : Classification} {s : String}

theorem ofName?_eq_some_iff : ofName? s = some c ↔ c.name = s := by
  constructor
  · intro h
    have hname := List.find?_some (p := fun c : Classification => c.name == s) h
    exact eq_of_beq hname
  · rintro rfl
    exact ofName?_name c

theorem ofToml_string_eq_ok_iff : ofToml (.string s) = .ok c ↔ c.name = s := by
  rw [ofToml, named, ← ofName?_eq_some_iff]
  cases ofName? s <;> simp

theorem exists_ofToml_string_eq_ok_iff :
    (∃ c, ofToml (.string s) = .ok c) ↔ s ∈ all.map name := by
  simp only [ofToml_string_eq_ok_iff, List.mem_map]
  exact exists_congr fun c => by rw [and_iff_right (by cases c <;> decide)]

end Classification

namespace Config

variable {fields os : List (String × Toml.Value)} {x : Toml.Value} {m m' : NameMap Classification}
  {c : Classification} {d d' : Config} {name text : String} {b : Bool}

/-! ## Overrides one after the other -/

theorem exists_readOverrides_eq_ok_iff :
    (∃ m', readOverrides m os = .ok m') ↔ ∀ o ∈ os, ∃ c, Classification.ofToml o.2 = .ok c := by
  induction os generalizing m with
  | nil => simp [readOverrides]
  | cons o os ih =>
      rw [List.forall_mem_cons, readOverrides]
      cases hc : Classification.ofToml o.2 with
      | error e => simp
      | ok c => simp [ih]

theorem get?_of_readOverrides (h : readOverrides m os = .ok m')
    (hnames : (os.map Prod.fst).Nodup) : m'.get? name = some c ↔
      (∃ x, (name, x) ∈ os ∧ Classification.ofToml x = .ok c) ∨
        name ∉ os.map Prod.fst ∧ m.get? name = some c := by
  induction os generalizing m with
  | nil =>
      obtain rfl := Except.ok.inj h
      simp
  | cons o os ih =>
      rw [List.map_cons, List.nodup_cons] at hnames
      rw [readOverrides] at h
      cases hc : Classification.ofToml o.2 with
      | error e => simp [hc] at h
      | ok c' =>
          rw [hc] at h
          rw [ih h hnames.2, NameMap.get?_insert]
          obtain ⟨first, x⟩ := o
          by_cases hname : name = first
          · subst hname
            have hnot : ∀ y, (name, y) ∉ os := fun y hy => hnames.1 (List.mem_map.2 ⟨_, hy, rfl⟩)
            simp only [hnot, hnames.1, List.mem_cons, Prod.mk.injEq]
            simp [hc]
          · simp [hname]

/-- A table whose overrides are all accepted assigns to every name what its override says. -/
theorem get?_of_readTable (h : readTable (.table os) = .ok m) (hnames : (os.map Prod.fst).Nodup) :
    m.get? name = some c ↔ ∃ x, (name, x) ∈ os ∧ Classification.ofToml x = .ok c := by
  rw [get?_of_readOverrides h hnames]
  simp

/-! ## Fields one after the other -/

/-- The fields that a configuration may have: a boolean for the switch, and a table of overrides
each of which is accepted. -/
def AcceptsField (f : String × Toml.Value) : Prop :=
  (f.1 = "legacy-quirks" ∧ ∃ b, f.2 = .boolean b) ∨
    f.1 = "overrides" ∧ ∃ os, f.2 = .table os ∧ ∀ o ∈ os, ∃ c, Classification.ofToml o.2 = .ok c

theorem readSwitch_eq_ok_iff : readSwitch x = .ok b ↔ x = .boolean b := by
  cases x <;> simp [readSwitch]

theorem acceptsField_switch_iff :
    AcceptsField ("legacy-quirks", x) ↔ ∃ b, readSwitch x = .ok b := by
  simp [AcceptsField, readSwitch_eq_ok_iff]

theorem acceptsField_overrides_iff :
    AcceptsField ("overrides", x) ↔ ∃ m, readTable x = .ok m := by
  cases x <;> simp [AcceptsField, readTable, exists_readOverrides_eq_ok_iff]

/-- A document is accepted if and only if each of its fields is. -/
theorem exists_readFields_eq_ok_iff :
    (∃ d', readFields d fields = .ok d') ↔ ∀ f ∈ fields, AcceptsField f := by
  induction fields generalizing d with
  | nil => simp [readFields]
  | cons f fields ih =>
      obtain ⟨name, x⟩ := f
      rw [List.forall_mem_cons, readFields]
      by_cases hswitch : name = "legacy-quirks"
      · rw [if_pos hswitch, hswitch, acceptsField_switch_iff]
        cases hx : readSwitch x with
        | error e => simp
        | ok b => simp [ih]
      · rw [if_neg hswitch]
        by_cases htable : name = "overrides"
        · rw [if_pos htable, htable, acceptsField_overrides_iff]
          cases hx : readTable x with
          | error e => simp
          | ok m => simp [ih]
        · simp [htable, hswitch, AcceptsField]

/-- The second configuration has the values of the fields, and those of the first one where a field
is missing. -/
structure IsReadFrom (d : Config) (fields : List (String × Toml.Value)) (d' : Config) : Prop where
  keepLeftovers :
    (∃ x, ("legacy-quirks", x) ∈ fields ∧ readSwitch x = .ok d'.keepLeftovers) ∨
      "legacy-quirks" ∉ fields.map Prod.fst ∧ d'.keepLeftovers = d.keepLeftovers
  overrides :
    (∃ x, ("overrides", x) ∈ fields ∧ readTable x = .ok d'.overrides) ∨
      "overrides" ∉ fields.map Prod.fst ∧ d'.overrides = d.overrides

theorem isReadFrom_of_readFields (h : readFields d fields = .ok d') : IsReadFrom d fields d' := by
  induction fields generalizing d with
  | nil =>
      obtain rfl := Except.ok.inj h
      exact ⟨by simp, by simp⟩
  | cons f fields ih =>
      obtain ⟨name, x⟩ := f
      rw [readFields] at h
      by_cases hname : name = "legacy-quirks"
      · subst hname
        rw [if_pos rfl] at h
        cases hx : readSwitch x with
        | error e => simp [hx] at h
        | ok b =>
            rw [hx] at h
            obtain ⟨hswitch, htable⟩ := ih h
            refine ⟨Or.inl ?_, by simpa using htable⟩
            rcases hswitch with ⟨y, hy, hread⟩ | ⟨-, hkept⟩
            · exact ⟨y, List.mem_cons_of_mem _ hy, hread⟩
            · exact ⟨x, List.mem_cons_self, by rw [hx, hkept]⟩
      · rw [if_neg hname] at h
        by_cases hname' : name = "overrides"
        · subst hname'
          rw [if_pos rfl] at h
          cases hx : readTable x with
          | error e => simp [hx] at h
          | ok m =>
              rw [hx] at h
              obtain ⟨hswitch, htable⟩ := ih h
              refine ⟨by simpa using hswitch, Or.inl ?_⟩
              rcases htable with ⟨y, hy, hread⟩ | ⟨-, hkept⟩
              · exact ⟨y, List.mem_cons_of_mem _ hy, hread⟩
              · exact ⟨x, List.mem_cons_self, by rw [hx, hkept]⟩
        · simp [hname'] at h

end Config

end TokenHighlight
