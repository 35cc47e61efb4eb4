import TokenHighlight.Program.Run
import TokenHighlight.Proofs.Program.Files
import TokenHighlight.Proofs.Table.Configure

/-!
# Configuration files

Either a configuration makes a table (`Files.LoadsTable`) or it is refused (`Files.RefusesConfig`):
its file cannot be read, holds no configuration, or has an override that names no kind.
-/

namespace TokenHighlight

theorem readSource_eq_error_iff {read : FileReader} {path : String} {f : Failure} :
    readSource read path = .error f ↔ ∃ e, read path = .error e ∧ f = .unreadable path e := by
  rw [readSource]
  cases read path with
  | error e => simp [Except.mapError, eq_comm]
  | ok text => simp [Except.mapError]

namespace Files

theorem readSource_eq_ok_iff {files : Files} {path text : String} :
    readSource files.read path = .ok text ↔ files.HoldsText path text := by
  rw [← read_eq_ok_iff, readSource]
  cases files.read path with
  | error e => simp [Except.mapError]
  | ok text => simp [Except.mapError]

/-- The table to use, and what is noted about it. -/
inductive LoadsTable (files : Files) : Option String → Table → List Event → Prop
  | standard : LoadsTable files none .standard []
  | configured {path text : String} {c : Config} {t : Table} (hread : files.HoldsText path text)
      (hparse : Config.ofToml text = .ok c) (happly : Table.standard.configure c = .ok t) :
      LoadsTable files (some path) t (configEvents path c)

/-- Why a configuration makes no table. -/
inductive RefusesConfig (files : Files) : Option String → Failure → Prop
  | unreadable {path : String} {e : FileError} (hread : files.read path = .error e) :
      RefusesConfig files (some path) (.unreadable path e)
  | malformed {path text : String} {e : ConfigError} (hread : files.HoldsText path text)
      (hparse : Config.ofToml text = .error e) :
      RefusesConfig files (some path) (.badConfig path e)
  | unknownOverride {path text name : String} {c : Config} (hread : files.HoldsText path text)
      (hparse : Config.ofToml text = .ok c) (hname : c.IsFirstUnknown name) :
      RefusesConfig files (some path) (.badOverride (.unknownKind name))

variable {files : Files} {config? : Option String} {t : Table} {events : List Event} {f : Failure}

theorem LoadsTable.loadTable_eq (h : files.LoadsTable config? t events) :
    loadTable files.read config? = .ok (t, events) := by
  cases h with
  | standard => rfl
  | configured hread hparse happly =>
      rw [loadTable, readSource_eq_ok_iff.2 hread]
      simp only [configuredTable, hparse, happly]

theorem RefusesConfig.loadTable_eq (h : files.RefusesConfig config? f) :
    loadTable files.read config? = .error f := by
  cases h with
  | unreadable hread => rw [loadTable, readSource_eq_error_iff.2 ⟨_, hread, rfl⟩]
  | malformed hread hparse =>
      rw [loadTable, readSource_eq_ok_iff.2 hread]
      simp only [configuredTable, hparse]
  | unknownOverride hread hparse hname =>
      have happly := (Table.configure_eq_error_iff (t := .standard)).2 ⟨_, hname, rfl⟩
      rw [loadTable, readSource_eq_ok_iff.2 hread]
      simp only [configuredTable, hparse, happly]

theorem loadsTable_or_refusesConfig (files : Files) (config? : Option String) :
    (∃ t events, files.LoadsTable config? t events) ∨ ∃ f, files.RefusesConfig config? f := by
  cases config? with
  | none => exact Or.inl ⟨_, _, .standard⟩
  | some path =>
      cases hread : files.read path with
      | error e => exact Or.inr ⟨_, .unreadable hread⟩
      | ok text =>
          have hheld := read_eq_ok_iff.1 hread
          cases hparse : Config.ofToml text with
          | error e => exact Or.inr ⟨_, .malformed hheld hparse⟩
          | ok c =>
              cases happly : Table.standard.configure c with
              | ok t => exact Or.inl ⟨_, _, .configured hheld hparse happly⟩
              | error e =>
                  obtain ⟨name, hname, -⟩ := Table.configure_eq_error_iff.1 happly
                  exact Or.inr ⟨_, .unknownOverride hheld hparse hname⟩

theorem loadTable_eq_ok_iff :
    loadTable files.read config? = .ok (t, events) ↔ files.LoadsTable config? t events := by
  refine ⟨fun h => ?_, LoadsTable.loadTable_eq⟩
  rcases files.loadsTable_or_refusesConfig config? with ⟨t', events', h'⟩ | ⟨f, h'⟩
  · rw [h'.loadTable_eq] at h
    cases h
    exact h'
  · rw [h'.loadTable_eq] at h
    cases h

/-- What is computed from the loaded table is true of a table that is loaded. -/
theorem exists_loadsTable_of_map {α : Type} {g : Table → α} {x : α}
    (h : (loadTable files.read config?).toOption.map (fun loaded => g loaded.1) = some x) :
    ∃ t events, files.LoadsTable config? t events ∧ g t = x := by
  cases hload : loadTable files.read config? with
  | error f =>
      rw [hload] at h
      cases h
  | ok loaded =>
      rw [hload] at h
      exact ⟨loaded.1, loaded.2, loadTable_eq_ok_iff.1 hload, Option.some.inj h⟩

end Files

end TokenHighlight
