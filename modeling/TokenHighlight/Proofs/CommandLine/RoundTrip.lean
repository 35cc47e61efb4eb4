import TokenHighlight.Proofs.CommandLine.Steps

/-!
# Arguments written and read

Reading inverts writing (`parse_toList`): the arguments of any run can be written on the command
line, whatever its paths and kinds look like, as long as no path is empty, the kinds are not
missing and the verbosity does not go beyond the counter.  Kinds need no dashes in front of them if
the first one does not begin with a dash.
-/

namespace TokenHighlight

open CommandLine

theorem CommandLine.addDefault_none (level : Level) (s : Scan) :
    addDefault none level s = .ok s := by
  unfold addDefault
  cases s.value? .config <;> rfl

namespace Command

/-- The level of a command. -/
def level : Command → Level
  | classify _ => .classify
  | table _ => .table
  | check _ _ => .check
  | highlight _ _ _ _ => .highlight

/-- The options of a command with their values. -/
def values : Command → List (Switch × String)
  | classify _ => []
  | table format => [(.format, format.word)]
  | check _ format? => (format?.map fun f => (Switch.format, f.word)).toList
  | highlight _ tokens output? format =>
      [(.format, format.word), (.tokens, tokens)] ++
        (output?.map fun path => (Switch.output, path)).toList

/-- The command has kinds if it needs some, and no path of it is empty. -/
def IsWritable : Command → Prop
  | classify kinds => kinds ≠ []
  | table _ => True
  | check tokens _ => tokens ≠ ""
  | highlight input tokens output? _ => input ≠ "" ∧ tokens ≠ "" ∧ output? ≠ some ""

/-- What has been read of a command in the end. -/
def scan (c : Command) : Scan := ⟨0, c.values, c.operands, none⟩

variable {c : Command}

theorem ofName?_name (c : Command) : Level.ofName? c.name = some c.level := by
  cases c <;> rfl

theorem name_ne_help (c : Command) : c.name ≠ "help" := by
  cases c <;> simp [name]

theorem options_eq (c : Command) : c.options = c.values.map fun e => e.1.written e.2 := by
  cases c with
  | classify kinds => rfl
  | table format => rfl
  | check tokens format? => cases format? <;> rfl
  | highlight input tokens output? format => cases output? <;> rfl

theorem takes_values (h : c.IsWritable) : ∀ e ∈ c.values, c.level.Takes e := by
  intro e he
  cases c with
  | classify kinds => cases he
  | table format =>
      obtain rfl := List.mem_singleton.1 he
      refine ⟨by simp [level, Level.switches], rfl, ?_⟩
      simp [level, Level.accepts, TableFormat.ofWord?_word]
  | check tokens format? =>
      cases format? with
      | none => cases he
      | some format =>
          obtain rfl := List.mem_singleton.1 he
          refine ⟨by simp [level, Level.switches], rfl, ?_⟩
          simp [level, Level.accepts, ReportFormat.ofWord?_word]
  | highlight input tokens output? format =>
      obtain ⟨-, htokens, houtput⟩ := h
      simp only [values, List.mem_append, List.mem_cons, List.not_mem_nil, or_false,
        Option.mem_toList, Option.map_eq_some_iff] at he
      rcases he with (rfl | rfl) | ⟨path, rfl, rfl⟩
      · refine ⟨by simp [level, Level.switches], rfl, ?_⟩
        simp [level, Level.accepts, HighlightFormat.ofWord?_word]
      · exact ⟨by simp [level, Level.switches], rfl, by simpa [Level.accepts] using htokens⟩
      · exact ⟨by simp [level, Level.switches], rfl, by simpa [Level.accepts] using houtput⟩

theorem nodup_values (c : Command) : (c.values.map Prod.fst).Nodup := by
  cases c with
  | classify kinds => exact List.nodup_nil
  | table format => exact List.nodup_singleton _
  | check tokens format? => cases format? <;> simp [values]
  | highlight input tokens output? format => cases output? <;> simp [values]

/-- What is left after the options: only the operands are missing. -/
theorem steps_options (h : c.IsWritable) :
    Steps c.level .ready .empty c.options .ready { c.scan with operands := [] } := by
  rw [options_eq]
  exact Steps.written c.values rfl (takes_values h) c.nodup_values

theorem scanCommand_operandList (h : c.IsWritable) :
    scanCommand c.level .ready { c.scan with operands := [] } c.operandList = .ok c.scan := by
  have hdashes := step_dashes c.level { c.scan with operands := [] }
  cases c with
  | classify kinds =>
      obtain ⟨kind, kinds, rfl⟩ := List.exists_cons_of_ne_nil h
      have hfirst := step_of_isVerbatim (.trailing .classify)
        { (classify (kind :: kinds)).scan with operands := [] } kind
      rw [Scan.operand_of_pending?_eq_none rfl] at hfirst
      have hsteps := Steps.cons hdashes (.cons hfirst (.operands _ kinds (.trailing .classify)))
      exact hsteps.scanCommand_eq.trans (Scan.settle_operands (Or.inl rfl))
  | table format => rfl
  | check tokens format? =>
      have hvalue := step_trailing_operand
        (s := { (check tokens format?).scan with operands := [] })
        tokens (Or.inl rfl) rfl rfl
      have hsteps := Steps.cons hdashes (.cons hvalue .nil)
      refine hsteps.scanCommand_eq.trans (Scan.settle_operands (Or.inr ?_))
      simpa using Ne.symm h
  | highlight input tokens output? format =>
      have hvalue := step_trailing_operand
        (s := { (highlight input tokens output? format).scan with operands := [] })
        input (Or.inr rfl) rfl rfl
      have hsteps := Steps.cons hdashes (.cons hvalue .nil)
      refine hsteps.scanCommand_eq.trans (Scan.settle_operands (Or.inr ?_))
      simpa using Ne.symm h.1

theorem scanCommand_toList (h : c.IsWritable) :
    scanCommand c.level .ready .empty (c.options ++ c.operandList) = .ok c.scan := by
  rw [(steps_options h).scanCommand_append, scanCommand_operandList h]

/-- The options that every command shares are not among its own. -/
theorem shared_not_mem_values (c : Command) :
    .color ∉ c.values.map Prod.fst ∧ .config ∉ c.values.map Prod.fst := by
  cases c with
  | classify kinds => simp [values]
  | table format => simp [values]
  | check tokens format? => cases format? <;> simp [values]
  | highlight input tokens output? format => cases output? <;> simp [values]

theorem commandOf_scan (h : c.IsWritable) : commandOf c.level c.scan = .ok c := by
  cases c with
  | classify kinds => simpa [commandOf, level, scan, operands, IsWritable] using h
  | table format => cases format <;> rfl
  | check tokens format? => rcases format? with _ | format <;> [rfl; cases format <;> rfl]
  | highlight input tokens output? format => cases output? <;> cases format <;> rfl

end Command

namespace Arguments

/-- The options in front of the command with their values. -/
def values (a : Arguments) : List (Switch × String) :=
  [(.color, a.color.word)] ++ (a.config?.map fun path => (Switch.config, path)).toList

/-- The arguments can be written: the verbosity is one that the counter reaches, and there is no
empty path and no missing kind. -/
structure IsWritable (a : Arguments) : Prop where
  verbosity : a.verbosity ≤ 255
  config : a.config? ≠ some ""
  command : a.command.IsWritable

/-- What has been read in front of the command in the end. -/
def scan (a : Arguments) : Scan := ⟨a.verbosity, a.values, [], none⟩

variable {a : Arguments}

theorem options_eq (a : Arguments) :
    a.options = List.replicate a.verbosity "-v" ++ a.values.map fun e => e.1.written e.2 := by
  obtain ⟨command, config?, color, verbosity⟩ := a
  rw [options, List.append_assoc]
  cases config? <;> rfl

theorem takes_values (h : a.config? ≠ some "") : ∀ e ∈ a.values, Level.top.Takes e := by
  intro e he
  simp only [values, List.mem_append, List.mem_singleton, Option.mem_toList,
    Option.map_eq_some_iff] at he
  rcases he with rfl | ⟨path, hpath, rfl⟩
  · refine ⟨by simp [Level.switches], rfl, ?_⟩
    simp [Level.accepts, ColorChoice.ofWord?_word]
  · rw [hpath] at h
    exact ⟨by simp [Level.switches], rfl, by simpa [Level.accepts] using h⟩

theorem nodup_values (a : Arguments) : (a.values.map Prod.fst).Nodup := by
  obtain ⟨command, config?, color, verbosity⟩ := a
  cases config? <;> simp [values]

theorem isDashed_of_mem_options {arg : String} (h : arg ∈ a.options) : IsDashed arg := by
  rw [options_eq, List.mem_append] at h
  rcases h with hverbose | hwritten
  · obtain rfl := List.eq_of_mem_replicate hverbose
    rfl
  · obtain ⟨e, -, rfl⟩ := List.mem_map.1 hwritten
    exact e.1.isDashed_written e.2

theorem steps_options (h : a.IsWritable) : Steps .top .ready .empty a.options .ready a.scan := by
  have hverbose : Steps .top .ready .empty _ .ready _ :=
    Steps.verbose (n := a.verbosity) rfl (by simpa [Scan.empty] using h.verbosity)
  have hwritten := Steps.written (s := { Scan.empty with verbosity := 0 + a.verbosity })
    a.values rfl (takes_values h.config) a.nodup_values
  rw [options_eq]
  simpa [Scan.empty, scan] using hverbose.append hwritten

theorem scanTop_options (h : a.IsWritable) (rest : List String) :
    scanTop .ready .empty (a.options ++ a.command.name :: rest) =
      .ok (a.scan, some (a.command.level, rest)) := by
  rw [(steps_options h).scanTop_append fun _ => isDashed_of_mem_options, scanTop,
    if_neg fun hboth => a.command.name_ne_help hboth.2, if_pos rfl, Command.ofName?_name]

theorem value?_scan_color (a : Arguments) : a.scan.value? .color = some a.color.word := rfl

theorem value?_scan_config (a : Arguments) : a.scan.value? .config = a.config? := by
  obtain ⟨command, config?, color, verbosity⟩ := a
  cases config? <;> rfl

theorem combine_scan (a : Arguments) : combine none a.scan a.command.scan a.command = a := by
  have hcolor : a.command.scan.value? .color = none :=
    Scan.value?_eq_none_iff.2 a.command.shared_not_mem_values.1
  have hconfig : a.command.scan.value? .config = none :=
    Scan.value?_eq_none_iff.2 a.command.shared_not_mem_values.2
  unfold combine
  rw [hcolor, hconfig, a.value?_scan_color, a.value?_scan_config]
  obtain ⟨command, config?, color, verbosity⟩ := a
  cases config? <;> simp [firstOf, ColorChoice.ofWord?_word, Command.scan, scan]

/-- Whatever the rest of a command is read as, the options before it do not disturb it. -/
theorem parse_options_append (h : a.IsWritable) (rest : List String)
    (hrest : scanCommand a.command.level .ready .empty rest = .ok a.command.scan) :
    parse none (a.options ++ a.command.name :: rest) = .ok a := by
  have hfinish : finish none .top a.scan = .ok a.scan := by
    rw [finish, Scan.settle_of_pending?_eq_none rfl]
    exact addDefault_none _ _
  rw [parse, scanTop_options h]
  simp only [hrest, addDefault_none, Command.commandOf_scan h.command, hfinish, combine_scan]

/-- The arguments of a run are read as they have been written.  Kinds are read without dashes in
front of them as well, if the first does not begin with one; those after it are taken as they
are. -/
theorem parse_toList (h : a.IsWritable) :
    parse none a.toList = .ok a ∧
      ∀ kind kinds, a.command = .classify (kind :: kinds) → kind.toList.head? ≠ some '-' →
        parse none (a.options ++ "classify" :: kind :: kinds) = .ok a := by
  refine ⟨?_, fun kind kinds hcommand hkind => ?_⟩
  · rw [toList, List.append_assoc, List.cons_append]
    exact parse_options_append h _ (Command.scanCommand_toList h.command)
  · have hfirst := step_of_not_isDashed (s := .empty) rfl hkind
    have hsteps := Steps.cons hfirst (Steps.operands _ kinds .listing)
    have hscan := hsteps.scanCommand_eq.trans (Scan.settle_operands (Or.inl rfl))
    have hparse := parse_options_append h (kind :: kinds)
    rw [hcommand] at hparse
    exact hparse hscan

/-- Kinds that look like options, and a path with an equals sign. -/
theorem parse_toList_classify :
    (⟨.classify ["--", "-v", "--config=x", ""], some "a=b", .always, 2⟩ : Arguments).IsWritable ∧
      parse none ["-v", "-v", "--color=always", "--config=a=b", "classify", "--", "--", "-v",
        "--config=x", ""] =
          .ok ⟨.classify ["--", "-v", "--config=x", ""], some "a=b", .always, 2⟩ ∧
      parse none ["--color=never", "classify", "PLUS", "--", "--help", "-v"] =
        .ok ⟨.classify ["PLUS", "--", "--help", "-v"], none, .never, 0⟩ := by
  have hdashes : (⟨.classify ["--", "-v", "--config=x", ""], some "a=b", .always, 2⟩ :
      Arguments).IsWritable := ⟨by decide, by decide, by simp [Command.IsWritable]⟩
  have hplain : (⟨.classify ["PLUS", "--", "--help", "-v"], none, .never, 0⟩ :
      Arguments).IsWritable := ⟨by decide, by decide, by simp [Command.IsWritable]⟩
  exact ⟨hdashes, (parse_toList hdashes).1,
    (parse_toList hplain).2 "PLUS" ["--", "--help", "-v"] rfl (by decide)⟩

end Arguments

end TokenHighlight
