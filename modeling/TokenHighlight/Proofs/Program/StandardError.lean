import Mathlib.Data.List.Basic
import TokenHighlight.Proofs.Program.Run

/-!
# The standard error and the results

Two runs that are asked for the same, one with more logging or with colour, note the same events
and fail for the same reason.  They differ in how they write this to the standard error and have the
same results (`Program.results_run_eq`).
-/

namespace TokenHighlight

/-- What a run leaves behind, the standard error excepted: the exit code, the standard output and
the files. -/
def Outcome.results (o : Outcome) : Nat × String × Files := (o.exit, o.stdout, o.files)

/-- What has gone wrong, if anything has. -/
def Ending.report? : Ending → Option HintedError
  | .success => none
  | .drift => none
  | .failure f => some f.report

theorem Ending.complaint_eq (colored : Bool) (e : Ending) :
    e.complaint colored = (e.report?.map fun report => report.printed colored).getD "" := by
  cases e <;> rfl

/-- The events that are shown. -/
def Event.shown (verbosity : Nat) (events : List Event) : List Event :=
  events.filter (isShown verbosity)

theorem Event.shown_sublist {verbosity verbosity' : Nat} (h : verbosity ≤ verbosity')
    (events : List Event) : (shown verbosity events).Sublist (shown verbosity' events) := by
  apply List.monotone_filter_right
  intro e he
  simp only [isShown, decide_eq_true_eq] at he ⊢
  omega

namespace Arguments

/-- The arguments ask for the same, if the standard error does not count. -/
def AsksForSame (a b : Arguments) : Prop :=
  b = { a with color := b.color, verbosity := b.verbosity }

/-- The standard error: a line for every event that is shown and the report of what has gone
wrong. -/
def IsStderr (a : Arguments) (events : List Event) (report? : Option HintedError) (text : String) :
    Prop :=
  text = String.join ((Event.shown a.verbosity events).map Event.line) ++
    (report?.map fun report => report.printed a.color.isColored).getD ""

variable {a b : Arguments}

theorem AsksForSame.plan_eq (h : a.AsksForSame b) (read : FileReader) :
    a.plan read = b.plan read := by
  rw [h]
  rfl

theorem results_run (a : Arguments) (files : Files) :
    (a.run files).results =
      (((a.plan files.read).commit files).2.exit, (a.plan files.read).printed,
        ((a.plan files.read).commit files).1) := by
  rw [run_eq]
  rfl

theorem isStderr_run (a : Arguments) (files : Files) :
    a.IsStderr (a.plan files.read).events ((a.plan files.read).commit files).2.report?
      (a.run files).stderr := by
  rw [run_eq]
  show Event.log _ _ ++ Ending.complaint _ _ = _
  rw [Event.log, Ending.complaint_eq]
  rfl

end Arguments

namespace Program

variable {default? default?' : Option String} {args args' : List String} {a b : Arguments}

/-- Neither logging nor colour reaches the results.  The standard errors tell of the same events and
the same error; with more logging, more of the events are shown. -/
theorem results_run_eq (ha : Arguments.parse default? args = .ok a)
    (hb : Arguments.parse default?' args' = .ok b) (h : a.AsksForSame b) (manual : Manual)
    (files : Files) :
    (run manual default? args files).results = (run manual default?' args' files).results ∧
      ∃ events report?, a.IsStderr events report? (run manual default? args files).stderr ∧
        b.IsStderr events report? (run manual default?' args' files).stderr ∧
        (a.verbosity ≤ b.verbosity →
          (Event.shown a.verbosity events).Sublist (Event.shown b.verbosity events)) := by
  rw [run_of_parse ha, run_of_parse hb]
  have hplan := h.plan_eq files.read
  refine ⟨?_, _, _, a.isStderr_run files, ?_, fun hle => Event.shown_sublist hle _⟩
  · rw [Arguments.results_run, Arguments.results_run, hplan]
  · rw [hplan]
    exact b.isStderr_run files

/-- Checking a file that names a single kind, quietly and with everything that there is to see. -/
theorem results_run_eq_check :
    ∃ a b, Arguments.parse (some "none.toml") ["check", "t"] = .ok a ∧
      Arguments.parse (some "none.toml") ["-vv", "check", "--color=always", "t", "-vvv"] = .ok b ∧
      a.AsksForSame b ∧ ∀ (manual : Manual) (files : Files),
        (run manual (some "none.toml") ["check", "t"] files).results =
          (run manual (some "none.toml") ["-vv", "check", "--color=always", "t", "-vvv"]
            files).results := by
  have ha : Arguments.parse (some "none.toml") ["check", "t"] =
      .ok ⟨.check "t" none, some "none.toml", .auto, 0⟩ := rfl
  have hb : Arguments.parse (some "none.toml") ["-vv", "check", "--color=always", "t", "-vvv"] =
      .ok ⟨.check "t" none, some "none.toml", .always, 3⟩ := rfl
  exact ⟨_, _, ha, hb, rfl, fun manual files => (results_run_eq ha hb rfl manual files).1⟩

end Program

end TokenHighlight
