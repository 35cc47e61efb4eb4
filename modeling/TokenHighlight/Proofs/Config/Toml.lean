import TokenHighlight.Config.Toml
import TokenHighlight.Proofs.Toml.Document

/-!
# Configurations written and read

`ofToml_toToml`: a configuration is read back from the text that is written for it, whatever the
names of its overrides are.
-/

namespace TokenHighlight

namespace Config

/-! ## The text of a configuration -/

/-- The fields of the table of overrides. -/
def overrideFields (es : List (String × Classification)) : List (String × Toml.Value) :=
  es.map fun e => (e.1, .string e.2.name)

/-- The fields of a configuration outside tables. -/
def tomlFields (c : Config) : List (String × Toml.Value) :=
  [("legacy-quirks", .boolean c.keepLeftovers)]

/-- The tables of a configuration. -/
def tomlTables (c : Config) : List (String × List (String × Toml.Value)) :=
  [("overrides", overrideFields c.overrides.entries)]

theorem spellsLine_overrideLine (e : String × Classification) :
    Toml.SpellsLine (overrideLine e) (.ofField (e.1, .string e.2.name)) := by
  have hline := Toml.SpellsLine.pair (Toml.spellsKey_keyText e.1.toList)
    (Toml.SpellsScalar.string e.2.name.toList)
  rwa [String.ofList_toList, String.ofList_toList] at hline

theorem spellsLines_overrides (es : List (String × Classification)) :
    Toml.SpellsLines (es.flatMap overrideLine)
      ((overrideFields es).map Toml.Expression.ofField) := by
  induction es with
  | nil => exact .nil
  | cons e es ih => exact .cons (spellsLine_overrideLine e) ih

theorem spellsScalar_switch (b : Bool) :
    Toml.SpellsScalar (if b then "true".toList else "false".toList) (.boolean b) := by
  cases b with
  | true => exact .true
  | false => exact .false

theorem switchText_eq : "legacy-quirks = ".toList = "legacy-quirks".toList ++ [' ', '=', ' '] := rfl

theorem headerText_eq : "\n\n[overrides]\n".toList =
    '\n' :: '\n' :: '[' :: ("overrides".toList ++ [']', '\n']) := rfl

/-- The lines of a configuration: the switch, an empty line, the header and the overrides. -/
theorem tomlText_eq (c : Config) : c.tomlText =
    ("legacy-quirks".toList ++ ' ' :: '=' :: ' ' ::
      (if c.keepLeftovers then "true".toList else "false".toList) ++ ['\n']) ++
    '\n' :: (('[' :: "overrides".toList ++ [']', '\n']) ++
      c.overrides.entries.flatMap overrideLine) := by
  unfold tomlText
  simp only [switchText_eq, headerText_eq, List.append_assoc, List.cons_append, List.nil_append]

theorem spellsLine_switch (b : Bool) : Toml.SpellsLine
    ("legacy-quirks".toList ++ ' ' :: '=' :: ' ' ::
      (if b then "true".toList else "false".toList) ++ ['\n'])
    (.ofField ("legacy-quirks", .boolean b)) := by
  have hkey : Toml.SpellsKey "legacy-quirks".toList "legacy-quirks".toList :=
    .bare (by decide) (List.all_eq_true.1 (by decide))
  have hline := Toml.SpellsLine.pair hkey (spellsScalar_switch b)
  rwa [String.ofList_toList] at hline

theorem spellsLine_header :
    Toml.SpellsLine ('[' :: "overrides".toList ++ [']', '\n']) (.table ["overrides"]) := by
  have hkey : Toml.SpellsKey "overrides".toList "overrides".toList :=
    .bare (by decide) (List.all_eq_true.1 (by decide))
  have hline := Toml.SpellsLine.table hkey
  rwa [String.ofList_toList] at hline

theorem spellsLines_tomlText (c : Config) : Toml.SpellsLines c.tomlText
    (c.tomlFields.map Toml.Expression.ofField ++
      c.tomlTables.flatMap Toml.Expression.ofTable) := by
  have htable := Toml.SpellsLines.cons spellsLine_header
    (spellsLines_overrides c.overrides.entries)
  have hlines := Toml.SpellsLines.cons (spellsLine_switch c.keepLeftovers) (.blank htable)
  rw [tomlText_eq, tomlTables, List.flatMap_singleton]
  exact hlines

/-! ## Reading it -/

theorem readOverrides_overrideFields (m : NameMap Classification)
    (es : List (String × Classification)) :
    readOverrides m (overrideFields es) = .ok (es.foldl (fun m e => m.insert e.1 e.2) m) := by
  induction es generalizing m with
  | nil => rfl
  | cons e es ih =>
      have hname : Classification.ofToml (.string e.2.name) = .ok e.2 := by
        rw [Classification.ofToml, Classification.named, Classification.ofName?_name]
      show readOverrides m ((e.1, .string e.2.name) :: overrideFields es) = _
      simp only [readOverrides, hname]
      exact ih (m.insert e.1 e.2)

theorem ofFields_toml (c : Config) :
    ofFields (c.tomlFields ++ c.tomlTables.map fun t => (t.1, .table t.2)) = .ok c := by
  have hread : readTable (.table (overrideFields c.overrides.entries)) = .ok c.overrides := by
    rw [readTable, readOverrides_overrideFields]
    exact congrArg Except.ok (NameMap.ofList_entries c.overrides)
  simp [tomlFields, tomlTables, ofFields, readFields, readSwitch, hread]

/-- Every configuration is read back from the text that is written for it: no override is lost,
changed or merged with another one, and the switch keeps its value. -/
theorem ofToml_toToml (c : Config) : ofToml c.toToml = .ok c := by
  have hnames : (c.tomlFields.map Prod.fst ++ c.tomlTables.map Prod.fst).Nodup := by
    show ["legacy-quirks", "overrides"].Nodup
    decide
  have hfields : ∀ t ∈ c.tomlTables, (t.2.map Prod.fst).Nodup := by
    intro t ht
    rw [List.mem_singleton.1 ht]
    have hnodup := c.overrides.nodup_names
    rwa [overrideFields, List.map_map]
  have hparse := Toml.parse?_of_spellsLines (spellsLines_tomlText c) hnames hfields
  rw [ofToml, toToml, hparse]
  exact ofFields_toml c

end Config

end TokenHighlight
