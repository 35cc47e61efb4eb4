import TokenHighlight.Proofs.Html.Rows
import TokenHighlight.Proofs.Program.Classify
import TokenHighlight.Proofs.Program.Configuration
import TokenHighlight.Proofs.Program.Files
import TokenHighlight.Proofs.Table.Print
import TokenHighlight.Proofs.TokenStream.Offsets

/-!
# All commands agree on tags

A configuration gives one table, and whichever command is asked for the tag of a kind, in whichever
spelling, the answer is what the table says (`Files.Configures.tags_agree`).  What `classify` prints
about an element can be fed back to it and is printed again.
-/

namespace TokenHighlight

open Text (HasLines)

/-! ## Token streams -/

/-- A kind of a token stream gives the kind, by its code or in one of its spellings. -/
inductive KindRef.Gives (k : Kind) : KindRef → Prop
  | code : Gives k (.code k.code)
  | name {s : String} (h : k.Spelling s) : Gives k (.name s)

theorem KindRef.Gives.element_eq {k : Kind} {kind : KindRef} (h : kind.Gives k) :
    kind.element .builtin = .ofKind k := by
  cases h with
  | code => exact if_pos (Decimal.isCode_iff.2 k.isCode_code)
  | name hs => rw [element, hs.resolve_eq]

namespace Table

variable {t : Table} {stream : List StreamToken}

/-- A JSON reader gets a row for each token, and wherever the kind of a token is given, the tags in
the row are the one that the table has for the kind, if there is one. -/
def TagsRows (t : Table) (stream : List StreamToken) (rendered : String) : Prop :=
  ∃ rows, Json.read rendered = .ok (.list rows) ∧
    List.Forall₂ (fun token row => ∀ k, token.kind.Gives k →
      Data.field? "tags" row = some (.list ((t.get k).toList.map fun tag => .text tag.name)))
      stream rows

theorem field?_tags (r : Row) :
    r.toData.field? "tags" = some (.list (r.tag?.toList.map fun tag => .text tag.name)) := rfl

theorem tagsRows_highlightJson {json : String} (h : TokenStream.read json = .ok stream)
    (text : String) :
    t.TagsRows stream (t.highlightJson text (stream.map (StreamToken.token .builtin))) := by
  have hspans := TokenStream.fitsWord_of_read h
  refine ⟨_, read_highlightJson ?_, ?_⟩
  · intro token htoken
    obtain ⟨token, hmem, rfl⟩ := List.mem_map.1 htoken
    exact hspans token hmem
  · rw [rows, List.map_map, List.map_map, List.forall₂_map_right_iff, List.forall₂_same]
    intro token _ k hk
    show Data.field? "tags" (Row.toData _) = _
    rw [field?_tags]
    show some (Data.list ((t.classify (token.kind.element .builtin)).toList.map _)) = _
    rw [hk.element_eq, classify_ofKind]

end Table

/-! ## Runs -/

namespace Arguments

variable {a : Arguments} {files : Files} {t : Table}

theorem run_table {format : TableFormat} (h : files.Configures a.config? t)
    (hcommand : a.command = .table format) :
    (a.run files).exit = 0 ∧ (a.run files).stdout = t.render format ++ "\n" := by
  obtain ⟨events, hload⟩ := h
  have hplan : a.plan files.read = .print events (t.render format ++ "\n") := by
    rw [plan, hcommand]
    show tablePlan files.read a.config? format = _
    rw [tablePlan, hload]
  rw [run_eq, hplan]
  exact ⟨rfl, rfl⟩

variable {input tokens text json : String} {output? : Option String} {stream : List StreamToken}

theorem exists_plan_highlight (h : files.Configures a.config? t)
    (hcommand : a.command = .highlight input tokens output? .json)
    (hinput : files.read input = .ok text) (htokens : files.read tokens = .ok json)
    (hparse : TokenStream.read json = .ok stream) :
    ∃ events, a.plan files.read = renderPlan t events text
      (stream.map (StreamToken.token .builtin)) output? .json := by
  obtain ⟨events, hload⟩ := h
  refine ⟨events ++ streamEvents input stream, ?_⟩
  rw [plan, hcommand]
  show highlightPlan files.read a.config? input tokens output? .json = _
  simp [highlightPlan, hload, loadStream, readSource, hinput, htokens, hparse, Except.mapError]

theorem run_highlight_print (h : files.Configures a.config? t)
    (hcommand : a.command = .highlight input tokens none .json)
    (hinput : files.read input = .ok text) (htokens : files.read tokens = .ok json)
    (hparse : TokenStream.read json = .ok stream) :
    (a.run files).exit = 0 ∧ (a.run files).stdout =
      t.highlightJson text (stream.map (StreamToken.token .builtin)) ++ "\n" := by
  obtain ⟨events, hplan⟩ := exists_plan_highlight h hcommand hinput htokens hparse
  rw [run_eq, hplan]
  exact ⟨rfl, rfl⟩

theorem run_highlight_write {path : String} (h : files.Configures a.config? t)
    (hcommand : a.command = .highlight input tokens (some path) .json)
    (hinput : files.read input = .ok text) (htokens : files.read tokens = .ok json)
    (hparse : TokenStream.read json = .ok stream) (hexit : (a.run files).exit = 0) :
    files.Wrote path (t.highlightJson text (stream.map (StreamToken.token .builtin)))
      (a.run files).files := by
  obtain ⟨events, hplan⟩ := exists_plan_highlight h hcommand hinput htokens hparse
  have hrendered : a.plan files.read = .write events path
      (t.highlightJson text (stream.map (StreamToken.token .builtin))) := hplan
  generalize t.highlightJson text (stream.map (StreamToken.token .builtin)) = rendered
    at hrendered ⊢
  cases hwrite : files.write path rendered with
  | error e => simp [run_eq, hrendered, Plan.commit, Plan.write, hwrite, Ending.exit] at hexit
  | ok after =>
      have hafter : (a.run files).files = after := by
        simp [run_eq, hrendered, Plan.commit, Plan.write, hwrite]
      rw [hafter]
      exact Files.wrote_of_write hwrite

end Arguments

/-- The line of `classify` about a kind. -/
def Kind.classifyLine (k : Kind) (tag? : Option Tag) : String :=
  k.name ++ " (" ++ String.ofList (Decimal.ofInt k.code) ++ "): " ++ tagOrNone tag?

theorem Table.elementLine_ofKind (t : Table) (k : Kind) :
    t.elementLine .builtin (.ofKind k) = k.classifyLine (t.get k) := by
  rw [elementLine, classify_ofKind]
  show Vocabulary.describe _ (.token k.code) ++ ": " ++ _ = _
  rw [Vocabulary.describe, Kind.ofCode?_code]
  apply String.toList_injective
  simp [Kind.classifyLine]

theorem Table.resolves_of_spelling {ks : List Kind} {kinds : List String}
    (h : List.Forall₂ Kind.Spelling ks kinds) : Resolves .builtin kinds (ks.map .ofKind) := by
  induction h with
  | nil => exact .nil
  | cons hk _ ih => exact .cons hk.resolve_eq ih

/-- All ways of asking for the tag of a kind give the one that the table of the configuration has
for it: the rows of the table, in JSON and in YAML, the lines about its spellings and the rows of
token streams.  What is printed about any element can be fed back and is printed again. -/
theorem Files.Configures.tags_agree {files : Files} {config? : Option String} {t : Table}
    (h : files.Configures config? t) :
    (∀ a : Arguments, a.config? = config? → a.command = .table .json →
      (a.run files).exit = 0 ∧ ∃ rows, Json.read (a.run files).stdout = .ok (.list rows) ∧
        ∀ k, Table.SaysTag rows k (t.get k)) ∧
    (∀ a : Arguments, a.config? = config? → a.command = .table .yaml →
      (a.run files).exit = 0 ∧
        HasLines (Kind.all.flatMap fun k => Table.rowLines k (t.get k)) (a.run files).stdout) ∧
    (∀ (a : Arguments) ks kinds, a.config? = config? → a.command = .classify kinds →
      List.Forall₂ Kind.Spelling ks kinds →
        (a.run files).exit = 0 ∧
          HasLines (ks.map fun k => k.classifyLine (t.get k)) (a.run files).stdout) ∧
    (∀ (a : Arguments) input tokens output? text json stream, a.config? = config? →
      a.command = .highlight input tokens output? .json → files.read input = .ok text →
        files.read tokens = .ok json → TokenStream.read json = .ok stream →
          ∃ rendered, t.TagsRows stream rendered ∧
            (output? = none →
              (a.run files).exit = 0 ∧ (a.run files).stdout = rendered ++ "\n") ∧
            ∀ path, output? = some path → (a.run files).exit = 0 →
              files.Wrote path rendered (a.run files).files) ∧
    ∀ (a : Arguments) kinds, a.config? = config? → a.command = .classify kinds →
      (a.run files).exit = 0 →
        ∃ lines, HasLines lines (a.run files).stdout ∧ lines.length = kinds.length ∧
          ∀ b : Arguments, b.config? = config? → b.command = .classify (lines.map fedBack) →
            (b.run files).exit = 0 ∧ (b.run files).stdout = (a.run files).stdout := by
  refine ⟨?_, ?_, ?_, ?_, ?_⟩
  · rintro a rfl hcommand
    obtain ⟨hexit, hstdout⟩ := Arguments.run_table h hcommand
    rw [hstdout]
    exact ⟨hexit, _, t.read_render_json, t.saysTag⟩
  · rintro a rfl hcommand
    obtain ⟨hexit, hstdout⟩ := Arguments.run_table h hcommand
    rw [hstdout]
    exact ⟨hexit, t.hasLines_render_yaml⟩
  · rintro a ks kinds rfl hcommand hks
    obtain ⟨hexit, hlines⟩ :=
      Arguments.run_classify_of_resolves h hcommand (Table.resolves_of_spelling hks)
    rw [List.map_map] at hlines
    exact ⟨hexit, by simpa [Function.comp_def, Table.elementLine_ofKind] using hlines⟩
  · rintro a input tokens output? text json stream rfl hcommand hinput htokens hparse
    refine ⟨_, Table.tagsRows_highlightJson hparse text, ?_, ?_⟩
    · rintro rfl
      exact Arguments.run_highlight_print h hcommand hinput htokens hparse
    · rintro path rfl hexit
      exact Arguments.run_highlight_write h hcommand hinput htokens hparse hexit
  · rintro a kinds rfl hcommand hexit
    exact Arguments.run_classify_fedBack hcommand hexit

/-- A directory with a configuration that reassigns one kind. -/
def plusFiles : Files := .ofList [("c", .text "[overrides]\nPLUS = \"identifier\"\n")]

theorem exists_configures_plusFiles :
    ∃ t, plusFiles.Configures (some "c") t ∧ t.get .plus = some .identifier := by
  have hget : (loadTable plusFiles.read (some "c")).toOption.map
      (fun loaded => loaded.1.get .plus) = some (some .identifier) := by decide +kernel
  obtain ⟨t, events, hload, hplus⟩ := Files.exists_loadsTable_of_map (g := fun t => t.get .plus) hget
  exact ⟨t, ⟨events, hload.loadTable_eq⟩, hplus⟩

/-- The kind is named in three ways, one of them an unusual form of its code. -/
theorem tags_agree_plusFiles :
    ∃ t, plusFiles.Configures (some "c") t ∧ ∀ color verbosity, HasLines
      ["PLUS (11): identifier", "PLUS (11): identifier", "PLUS (11): identifier"]
      ((⟨.classify ["PLUS", "+011", "'+'"], some "c", color, verbosity⟩ : Arguments).run
        plusFiles).stdout := by
  obtain ⟨t, ht, hplus⟩ := exists_configures_plusFiles
  have hcode : Kind.plus.Spelling "+011" := .code (Decimal.toInt?_eq_some_iff.1 rfl)
  have hspelling : List.Forall₂ Kind.Spelling [.plus, .plus, .plus] ["PLUS", "+011", "'+'"] :=
    .cons .name (.cons hcode (.cons (.literal rfl) .nil))
  refine ⟨t, ht, fun color verbosity => ?_⟩
  have hline : Kind.plus.classifyLine (t.get .plus) = "PLUS (11): identifier" := by
    rw [hplus]
    decide +kernel
  have hlines := (ht.tags_agree.2.2.1 ⟨_, _, color, verbosity⟩ _ _ rfl rfl hspelling).2
  simpa only [List.map_cons, List.map_nil, hline] using hlines

end TokenHighlight
