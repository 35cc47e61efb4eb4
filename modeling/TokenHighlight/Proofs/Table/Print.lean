import TokenHighlight.Program.Render
import TokenHighlight.Proofs.Json.Value
import TokenHighlight.Proofs.Text.Lines
import TokenHighlight.Proofs.Vocabulary.RoundTrip
import TokenHighlight.Proofs.Yaml.Printer

/-!
# The table in print

The table has a row for every kind, which says its tag.  A JSON reader gets the rows back
(`read_render_json`), and in YAML they are made of plain lines (`hasLines_render_yaml`).
-/

namespace TokenHighlight

/-- The value under a name in a record. -/
def Data.field? (name : String) : Data → Option Data
  | .record fs => fs.lookup name
  | _ => none

namespace Table

variable {t : Table}

/-- The fields of the row of a kind. -/
def rowFields (k : Kind) (tag? : Option Tag) : List (String × Data) :=
  [("name", .text k.name), ("code", .int k.code)] ++
    (k.literal.map fun s => ("literal", Data.text s)).toList ++
    [("tag", .ofText? (tag?.map Tag.name))] ++ tagFields tag?

/-- Every row about the kind says its tag, and there is such a row. -/
def SaysTag (rows : List Data) (k : Kind) (tag? : Option Tag) : Prop :=
  (∃ row ∈ rows, row.field? "name" = some (.text k.name)) ∧
    ∀ row ∈ rows, row.field? "name" = some (.text k.name) →
      row.field? "tag" = some (.ofText? (tag?.map Tag.name))

/-! ## JSON -/

theorem toData_eq_rows (t : Table) :
    t.toData = .list (Kind.all.map fun k => .record (rowFields k (t.get k))) := by
  rw [toData, toList, List.map_map]
  rfl

theorem field?_name (k : Kind) (tag? : Option Tag) :
    (Data.record (rowFields k tag?)).field? "name" = some (.text k.name) := rfl

theorem field?_tag (k : Kind) (tag? : Option Tag) :
    (Data.record (rowFields k tag?)).field? "tag" = some (.ofText? (tag?.map Tag.name)) := by
  rw [Data.field?, rowFields]
  cases k.literal <;> rfl

theorem saysTag (t : Table) (k : Kind) :
    SaysTag (Kind.all.map fun k => .record (rowFields k (t.get k))) k (t.get k) := by
  refine ⟨⟨_, List.mem_map_of_mem k.mem_all, field?_name k _⟩, fun row hrow hname => ?_⟩
  obtain ⟨l, -, rfl⟩ := List.mem_map.1 hrow
  rw [field?_name, Option.some.injEq, Data.text.injEq] at hname
  rw [Kind.name_inj hname]
  exact field?_tag k _

theorem isExact_rowFields (k : Kind) (tag? : Option Tag) :
    Json.IsExact 1 (.record (rowFields k tag?)) := by
  have hcode : Json.FitsWord k.code := Json.fitsWord_of_isCode k.isCode_code
  refine .record fun f hf => ?_
  simp only [rowFields, List.mem_append, List.mem_cons, List.not_mem_nil, or_false,
    Option.mem_toList, Option.map_eq_some_iff] at hf
  rcases hf with (((rfl | rfl) | ⟨s, -, rfl⟩) | rfl) | hf
  · exact .text _
  · exact .int hcode
  · exact .text _
  · cases tag? with
    | none => exact .null
    | some tag => exact .text _
  · cases tag? with
    | none => cases hf
    | some tag =>
        simp only [tagFields, List.mem_cons, List.not_mem_nil, or_false] at hf
        rcases hf with rfl | rfl | rfl <;> exact .text _

theorem isExact_rows (t : Table) : Json.IsExact 2 t.toData := by
  rw [toData_eq_rows]
  refine .list fun x hx => ?_
  obtain ⟨k, -, rfl⟩ := List.mem_map.1 hx
  exact isExact_rowFields k _

theorem getLast?_prettyAt_list (depth : Nat) (xs : List Data) :
    (Json.prettyAt depth (.list xs)).getLast? = some ']' := by
  cases xs with
  | nil => rfl
  | cons x xs => rw [Json.prettyAt, List.getLast?_concat]

theorem render_json (t : Table) : t.render .json = Json.pretty t.toData := by
  have htrim : Text.trimRight (Json.prettyAt 0 t.toData ++ []) = Json.prettyAt 0 t.toData := by
    refine Text.trimRight_append (by simp) fun c hc => ?_
    rw [toData, getLast?_prettyAt_list, Option.mem_some_iff] at hc
    subst hc
    decide
  rw [render, Json.pretty, String.toList_ofList]
  simpa using congrArg String.ofList htrim

theorem read_render_json (t : Table) :
    Json.read (t.render .json ++ "\n") =
      .ok (.list (Kind.all.map fun k => .record (rowFields k (t.get k)))) := by
  rw [render_json, ← toData_eq_rows]
  exact Json.read_pretty_append (t.isExact_rows.mono (by decide)) (Json.isBlanks_newline 0)

/-! ## YAML -/

/-- A text as it is written in YAML. -/
def yamlText (s : String) : String := String.ofList (Yaml.scalar 2 s.toList)

/-- The lines about a tag. -/
def tagLines : Option Tag → List String
  | none => ["  tag: null"]
  | some tag =>
      ["  tag: " ++ tag.name, "  key: " ++ tag.key, "  fallback: " ++ tag.fallback,
        "  scope: " ++ tag.scope]

/-- The lines about a kind. -/
def rowLines (k : Kind) (tag? : Option Tag) : List String :=
  ["- name: " ++ yamlText k.name, "  code: " ++ String.ofList (Decimal.ofInt k.code)] ++
    (k.literal.map fun s => "  literal: " ++ yamlText s).toList ++ tagLines tag?

theorem scalar_tag (tag : Tag) :
    Yaml.scalar 2 tag.name.toList = tag.name.toList ∧
      Yaml.scalar 2 tag.key.toList = tag.key.toList ∧
      Yaml.scalar 2 tag.fallback.toList = tag.fallback.toList ∧
      Yaml.scalar 2 tag.scope.toList = tag.scope.toList := by
  cases tag <;> decide +kernel

theorem recordLines_rowFields (k : Kind) (tag? : Option Tag) :
    Yaml.recordLines (rowFields k tag?) = (rowLines k tag?).map String.toList := by
  have hkey : ∀ name ∈ ["name", "code", "literal", "tag", "key", "fallback", "scope"],
      Yaml.scalar 4 name.toList = name.toList := by decide
  simp only [List.forall_mem_cons, String.reduceToList] at hkey
  cases hliteral : k.literal <;> cases tag?
  all_goals
    simp [rowFields, rowLines, tagLines, Yaml.recordLines, Yaml.fieldLine, Yaml.blockAt, tagFields,
      Data.ofText?, yamlText, hkey, hliteral, scalar_tag]

theorem isInline_rowFields (k : Kind) (tag? : Option Tag) :
    ∀ f ∈ rowFields k tag?, Yaml.IsInline f.2 := by
  cases hliteral : k.literal <;> cases tag?
  all_goals simp [rowFields, tagFields, hliteral, Data.ofText?, Yaml.IsInline]

theorem feed_not_mem_yamlText {s : String} (h : '\n' ∉ s.toList) : '\n' ∉ (yamlText s).toList := by
  rw [yamlText, String.toList_ofList]
  exact Yaml.feed_not_mem_scalar h 2

theorem feed_not_mem_tagLines (tag? : Option Tag) : ∀ line ∈ tagLines tag?, '\n' ∉ line.toList := by
  cases tag? with
  | none => decide
  | some tag =>
      have htexts : '\n' ∉ tag.name.toList ∧ '\n' ∉ tag.key.toList ∧
          '\n' ∉ tag.fallback.toList ∧ '\n' ∉ tag.scope.toList := by
        cases tag <;> decide +kernel
      simpa [tagLines] using htexts

theorem feed_not_mem_rowLines (k : Kind) (tag? : Option Tag) :
    ∀ line ∈ rowLines k tag?, '\n' ∉ line.toList := by
  have hname := feed_not_mem_yamlText k.isSymbolic_name.feed_not_mem
  have hcode : '\n' ∉ Decimal.ofInt k.code := Decimal.not_mem_ofInt _ (by decide)
  intro line hline
  simp only [rowLines, List.mem_append, List.mem_cons, List.not_mem_nil, or_false,
    Option.mem_toList, Option.map_eq_some_iff] at hline
  rcases hline with ((rfl | rfl) | ⟨s, hs, rfl⟩) | htag
  · simpa using hname
  · simpa using hcode
  · simpa using feed_not_mem_yamlText (Kind.isQuoted_of_literal hs).2
  · exact feed_not_mem_tagLines tag? line htag

/-- The last line about a kind does not end with a blank. -/
theorem exists_rowLines_eq_append (k : Kind) (tag? : Option Tag) :
    ∃ lines line c, rowLines k tag? = lines ++ [line] ∧ line.toList.getLast? = some c ∧
      ¬Text.isBlank c := by
  cases tag? with
  | none => exact ⟨_, _, 'l', rfl, by decide, by decide⟩
  | some tag =>
      have hscope : ∃ c, ("  scope: " ++ tag.scope).toList.getLast? = some c ∧ ¬Text.isBlank c := by
        cases tag <;> exact ⟨_, rfl, by decide⟩
      obtain ⟨c, hlast, hc⟩ := hscope
      exact ⟨_, _, c, (List.append_assoc _ [_, _, _] [_]).symm, hlast, hc⟩

/-- The lines of the table. -/
def yamlLines (t : Table) : List String := Kind.all.flatMap fun k => rowLines k (t.get k)

theorem hasLines_block (t : Table) : Text.HasLines t.yamlLines (Yaml.block t.toData) := by
  have hrecords : t.toData =
      .list ((Kind.all.map fun k => rowFields k (t.get k)).map .record) := by
    rw [toData_eq_rows, List.map_map]
    rfl
  have hinline : ∀ fs ∈ Kind.all.map (fun k => rowFields k (t.get k)),
      fs ≠ [] ∧ ∀ f ∈ fs, Yaml.IsInline f.2 := by
    intro fs hfs
    obtain ⟨k, -, rfl⟩ := List.mem_map.1 hfs
    exact ⟨List.cons_ne_nil _ _, isInline_rowFields k _⟩
  have hne : Kind.all.map (fun k => rowFields k (t.get k)) ≠ [] := by simp [Kind.all]
  refine ⟨String.toList_injective ?_, fun line hline => ?_⟩
  · rw [hrecords, Yaml.block_records hne hinline, List.flatMap_map]
    simp only [recordLines_rowFields, ← List.map_flatMap]
    simp [yamlLines, List.flatMap_map]
  · obtain ⟨k, -, hk⟩ := List.mem_flatMap.1 hline
    exact feed_not_mem_rowLines k _ line hk

theorem hasLines_render_yaml (t : Table) :
    Text.HasLines t.yamlLines (t.render .yaml ++ "\n") := by
  -- trimming stops at the last line, which is about the last kind
  have hall : Kind.all = Kind.all.dropLast ++ [.unexpectedChar] := by decide
  obtain ⟨lines, line, c, hlines, hlast, hc⟩ :=
    exists_rowLines_eq_append .unexpectedChar (t.get .unexpectedChar)
  have hblock := t.hasLines_block
  have hyaml : t.yamlLines =
      (Kind.all.dropLast.flatMap fun k => rowLines k (t.get k)) ++ lines ++ [line] := by
    rw [yamlLines, hall]
    simp [hlines]
  have htrim : t.render .yaml ++ "\n" = Yaml.block t.toData :=
    (hyaml ▸ hblock).trimRight_append hlast hc
  rwa [htrim]

end Table

end TokenHighlight
