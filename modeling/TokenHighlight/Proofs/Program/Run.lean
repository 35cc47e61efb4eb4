import TokenHighlight.Program.Run

/-!
# Runs in a tree of files

A plan depends on nothing but the files that the command names (`Arguments.plan_congr`), so a run
that reads these first and then plans is the plan for all files, committed to the tree
(`Arguments.run_eq`).
-/

namespace TokenHighlight

/-! ## Reading -/

/-- Reading changes no file, and each file is read as it is in the tree. -/
theorem Files.exists_run_readAll (files : Files) (paths : List String) :
    ∃ read, (Files.access.readAll paths).run files = (read, files) ∧
      ∀ path ∈ paths, read path = files.read path := by
  induction paths with
  | nil => exact ⟨_, rfl, by simp⟩
  | cons path paths ih =>
      obtain ⟨read, hrun, hread⟩ := ih
      have hcons : (Files.access.readAll (path :: paths)).run files =
          (fun p => if p = path then files.read path
            else ((Files.access.readAll paths).run files).1 p,
            ((Files.access.readAll paths).run files).2) := rfl
      refine ⟨_, hcons.trans (by rw [hrun]), fun p hp => ?_⟩
      by_cases heq : p = path
      · rw [if_pos heq, heq]
      · rw [if_neg heq]
        exact hread p ((List.mem_cons.1 hp).resolve_left heq)

section

variable {read read' : FileReader} {config? : Option String}

theorem loadTable_congr (h : ∀ path ∈ config?, read path = read' path) :
    loadTable read config? = loadTable read' config? := by
  cases config? with
  | none => rfl
  | some path => rw [loadTable, loadTable, readSource, readSource, h path rfl]

theorem Command.plan_congr {c : Command}
    (h : ∀ path ∈ c.sources config?, read path = read' path) :
    c.plan read config? = c.plan read' config? := by
  cases c with
  | classify kinds =>
      have hload := loadTable_congr fun path hpath => h path (Option.mem_toList.2 hpath)
      rw [plan, plan, classifyPlan, classifyPlan, hload]
  | table format =>
      have hload := loadTable_congr fun path hpath => h path (Option.mem_toList.2 hpath)
      rw [plan, plan, tablePlan, tablePlan, hload]
  | check tokens format? =>
      rw [plan, plan, checkPlan, checkPlan, readSource, readSource, h tokens List.mem_cons_self]
  | highlight input tokens output? format =>
      have hload := loadTable_congr fun path hpath =>
        h path (List.mem_append_left _ (Option.mem_toList.2 hpath))
      have hinput : read input = read' input := h input (by simp [sources])
      have htokens : read tokens = read' tokens := h tokens (by simp [sources])
      simp only [plan, highlightPlan, hload, loadStream, readSource, hinput, htokens]

end

theorem Arguments.plan_congr {a : Arguments} {read read' : FileReader}
    (h : ∀ path ∈ a.sources, read path = read' path) : a.plan read = a.plan read' :=
  Command.plan_congr h

/-! ## Writing -/

section

variable {files after : Files} {path text : String} {e : OsError}

theorem Files.run_write_of_error (h : files.write path text = .error e) :
    (Files.access.write path text).run files = (.error e, files) := by
  simp only [access, StateT.run_bind, StateT.run_get, pure_bind, h]
  rfl

theorem Files.run_write_of_ok (h : files.write path text = .ok after) :
    (Files.access.write path text).run files = (.ok (), after) := by
  simp only [access, StateT.run_bind, StateT.run_get, pure_bind, h]
  rfl

end

/-- The files after a plan and how it ends: a file that cannot be written makes it fail. -/
def Plan.commit (p : Plan) (files : Files) : Files × Ending :=
  match p.file? with
  | none => (files, p.ending)
  | some (path, text) =>
      match files.write path text with
      | .error e => (files, .failure (.unwritable path e))
      | .ok files => (files, p.ending)

theorem Plan.run_carryOut (p : Plan) (files : Files) :
    (p.carryOut Files.access).run files = ((p.commit files).2, (p.commit files).1) := by
  obtain ⟨events, printed, file?, ending⟩ := p
  cases file? with
  | none => rfl
  | some file =>
      obtain ⟨path, text⟩ := file
      cases hwrite : files.write path text with
      | error e =>
          rw [carryOut, StateT.run_bind, Files.run_write_of_error hwrite]
          simp only [commit, hwrite]
          rfl
      | ok after =>
          rw [carryOut, StateT.run_bind, Files.run_write_of_ok hwrite]
          simp only [commit, hwrite]
          rfl

/-! ## Runs -/

namespace Arguments

theorem run_respond (a : Arguments) (files : Files) :
    (a.respond Files.access).run files =
      (⟨((a.plan files.read).commit files).2.exit, (a.plan files.read).printed,
        a.stderr (a.plan files.read).events ((a.plan files.read).commit files).2⟩,
        ((a.plan files.read).commit files).1) := by
  obtain ⟨read, hrun, hread⟩ := files.exists_run_readAll a.sources
  have hplan : a.plan read = a.plan files.read := plan_congr hread
  rw [respond, StateT.run_bind, hrun]
  show StateT.run ((a.plan read).carryOut Files.access >>= fun ending => pure (⟨ending.exit,
    (a.plan read).printed, a.stderr (a.plan read).events ending⟩ : Response)) files = _
  rw [hplan, StateT.run_bind, Plan.run_carryOut]
  rfl

theorem run_eq (a : Arguments) (files : Files) :
    a.run files =
      ⟨⟨((a.plan files.read).commit files).2.exit, (a.plan files.read).printed,
        a.stderr (a.plan files.read).events ((a.plan files.read).commit files).2⟩,
        ((a.plan files.read).commit files).1⟩ := by
  rw [run, Outcome.ofRun, run_respond]

/-- A plan to fail leaves the files alone. -/
theorem run_of_fail {a : Arguments} {files : Files} {events : List Event} {f : Failure}
    (h : a.plan files.read = .fail events f) :
    a.run files =
      ⟨⟨1, "", Event.log a.verbosity events ++ f.report.printed a.color.isColored⟩, files⟩ := by
  rw [run_eq, h]
  rfl

end Arguments

theorem Program.run_of_parse {manual : Manual} {default? : Option String} {args : List String}
    {a : Arguments} (h : Arguments.parse default? args = .ok a) (files : Files) :
    run manual default? args files = a.run files := by
  rw [run, respond, h]
  rfl

end TokenHighlight
