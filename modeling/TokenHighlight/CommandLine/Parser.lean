import TokenHighlight.CommandLine.Scan

/-!
# Reading arguments

`Arguments.parse` reads the arguments of a run.  An option that is allowed on both levels counts
where it is given last; the configuration file may also come from the environment.
-/

namespace TokenHighlight

namespace CommandLine

/-- Takes the configuration file of a level from the environment unless it is given. -/
def addDefault (default? : Option String) (level : Level) (s : Scan) : Except Stop Scan :=
  match s.value? .config, default? with
  | some _, _ => .ok s
  | none, none => .ok s
  | none, some path =>
      if level.accepts .config path then .ok s else .error (.usage .invalidValue)

/-- An option that a command cannot do without. -/
def required (s : Scan) (o : Switch) : Except Stop String :=
  match s.value? o with
  | some value => .ok value
  | none => .error (.usage .missingArgument)

/-- The operand that a command cannot do without. -/
def requiredOperand (s : Scan) : Except Stop String :=
  match s.operands with
  | value :: _ => .ok value
  | [] => .error (.usage .missingArgument)

/-- The command that the arguments on its level ask for. -/
def commandOf (level : Level) (s : Scan) : Except Stop Command :=
  match level with
  | .top => .error (.usage .missingCommand)
  | .classify =>
      if s.operands.isEmpty then .error (.usage .missingArgument)
      else .ok (.classify s.operands)
  | .table => .ok (.table (((s.value? .format).bind TableFormat.ofWord?).getD .json))
  | .check =>
      match requiredOperand s with
      | .error e => .error e
      | .ok tokens => .ok (.check tokens ((s.value? .format).bind ReportFormat.ofWord?))
  | .highlight =>
      match requiredOperand s, required s .tokens with
      | .error e, _ => .error e
      | .ok _, .error e => .error e
      | .ok input, .ok tokens =>
          .ok (.highlight input tokens (s.value? .output)
            (((s.value? .format).bind HighlightFormat.ofWord?).getD .html))

/-- The first of some optional values. -/
def firstOf {α : Type} (a? b? c? : Option α) : Option α :=
  match a?, b? with
  | some a, _ => some a
  | none, some b => some b
  | none, none => c?

/-- The arguments of a run from the two levels. -/
def combine (default? : Option String) (top inner : Scan) (command : Command) : Arguments where
  command := command
  config? := firstOf (inner.value? .config) (top.value? .config) default?
  color :=
    ((firstOf (inner.value? .color) (top.value? .color) none).bind ColorChoice.ofWord?).getD .auto
  verbosity := if inner.verbosity = 0 then top.verbosity else inner.verbosity

/-- Why arguments without a command do not start a run. -/
def noCommand (default? : Option String) (s : Scan) : Stop :=
  if s.verbosity = 0 ∧ s.values.isEmpty ∧ default?.isNone then .usage .noArguments
  else .usage .missingCommand

/-- Finishes a level: settles what is pending and looks at the environment. -/
def finish (default? : Option String) (level : Level) (s : Scan) : Except Stop Scan :=
  match s.settle level with
  | .error e => .error e
  | .ok s => addDefault default? level s

end CommandLine

open CommandLine in
/-- Reads the arguments of a run, given the configuration file that the environment names. -/
def Arguments.parse (default? : Option String) (args : List String) : Except Stop Arguments :=
  match scanTop .ready .empty args with
  | .error e => .error e
  | .ok (top, none) =>
      match finish default? .top top with
      | .error e => .error e
      | .ok top => .error (noCommand default? top)
  | .ok (top, some (level, args)) =>
      match scanCommand level .ready .empty args with
      | .error e => .error e
      | .ok inner =>
          match addDefault default? level inner with
          | .error e => .error e
          | .ok inner =>
              match commandOf level inner with
              | .error e => .error e
              | .ok command =>
                  match finish default? .top top with
                  | .error e => .error e
                  | .ok top => .ok (combine default? top inner command)

end TokenHighlight
