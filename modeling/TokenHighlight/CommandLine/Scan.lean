import TokenHighlight.CommandLine.Arguments

/-!
# Scanning arguments

Arguments are scanned on two levels: the options before the command, then the options and operands
of the command.  A `Scan` is what has been read on a level.  An option whose value is the next
argument stays pending, with its value, until something else is read; only then is the value
checked.
-/

namespace TokenHighlight

namespace CommandLine

/-- A level of arguments: before the command, or those of a command. -/
inductive Level where
  /-- Before the command. -/
  | top
  /-- The arguments of `classify`. -/
  | classify
  /-- The arguments of `table`. -/
  | table
  /-- The arguments of `check`. -/
  | check
  /-- The arguments of `highlight`. -/
  | highlight
  deriving DecidableEq

/-- An option or a flag. -/
inductive Switch where
  /-- The configuration file. -/
  | config
  /-- When to use colour. -/
  | color
  /-- More logging. -/
  | verbosity
  /-- Help. -/
  | help
  /-- The version. -/
  | version
  /-- The format of the output. -/
  | format
  /-- The token stream. -/
  | tokens
  /-- The output file. -/
  | output
  deriving DecidableEq

namespace Switch

/-- The long name of an option. -/
def long : Switch → String
  | config => "config"
  | color => "color"
  | verbosity => "verbosity"
  | help => "help"
  | version => "version"
  | format => "format"
  | tokens => "tokens"
  | output => "output"

/-- The letter of an option. -/
def short? : Switch → Option Char
  | verbosity => some 'v'
  | help => some 'h'
  | version => some 'V'
  | output => some 'o'
  | _ => none

/-- Whether an option has a value. -/
def takesValue : Switch → Bool
  | verbosity => false
  | help => false
  | version => false
  | _ => true

end Switch

namespace Level

/-- The options of a level. -/
def switches : Level → List Switch
  | top => [.config, .color, .verbosity, .help, .version]
  | classify => [.config, .color, .verbosity, .help]
  | table => [.config, .color, .verbosity, .help, .format]
  | check => [.config, .color, .verbosity, .help, .format]
  | highlight => [.config, .color, .verbosity, .help, .tokens, .output, .format]

/-- The option of a level with a given long name. -/
def ofLong? (level : Level) (name : List Char) : Option Switch :=
  level.switches.find? fun o => o.long.toList == name

/-- The option of a level with a given letter. -/
def ofShort? (level : Level) (c : Char) : Option Switch :=
  level.switches.find? fun o => o.short? == some c

/-- Whether operands may look like options. -/
def takesAny (level : Level) : Bool := level == classify

/-- Whether a value is accepted for an option. -/
def accepts (level : Level) (o : Switch) (value : String) : Bool :=
  match o with
  | .color => (ColorChoice.ofWord? value).isSome
  | .format =>
      match level with
      | table => (TableFormat.ofWord? value).isSome
      | check => (ReportFormat.ofWord? value).isSome
      | _ => (HighlightFormat.ofWord? value).isSome
  | _ => value != ""

/-- The level of a command name. -/
def ofName? (name : String) : Option Level :=
  if name = "classify" ∨ name = "c" then some classify
  else if name = "table" then some table
  else if name = "check" then some check
  else if name = "highlight" ∨ name = "hl" then some highlight
  else none

end Level

/-- Something that has been read and is not yet checked. -/
inductive Pending where
  /-- An option, and its value if that has been read. -/
  | switch (o : Switch) (value? : Option String)
  /-- Operands. -/
  | operands (values : List String)
  deriving DecidableEq

/-- What has been read on a level. -/
structure Scan where
  /-- How often more logging was asked for. -/
  verbosity : Nat
  /-- The options with their values. -/
  values : List (Switch × String)
  /-- The operands. -/
  operands : List String
  /-- What is not yet checked. -/
  pending? : Option Pending
  deriving DecidableEq

namespace Scan

/-- The start of a level. -/
def empty : Scan := ⟨0, [], [], none⟩

/-- The value of an option. -/
def value? (s : Scan) (o : Switch) : Option String := s.values.lookup o

/-- Adds the value of an option. -/
def record (s : Scan) (level : Level) (o : Switch) (value : String) : Except Stop Scan :=
  if (s.value? o).isSome then .error (.usage .repeatedOption)
  else if level.accepts o value then .ok { s with values := s.values ++ [(o, value)] }
  else .error (.usage .invalidValue)

/-- Checks what is pending. -/
def settle (s : Scan) (level : Level) : Except Stop Scan :=
  match s.pending? with
  | none => .ok s
  | some (.switch _ none) => .error (.usage .invalidValue)
  | some (.switch o (some value)) => { s with pending? := none }.record level o value
  | some (.operands values) =>
      if !level.takesAny && values.contains "" then .error (.usage .invalidValue)
      else .ok { s with operands := s.operands ++ values, pending? := none }

/-- Reads a flag. -/
def flag (s : Scan) (level : Level) (o : Switch) : Except Stop Scan :=
  match s.settle level with
  | .error e => .error e
  | .ok s =>
      match o with
      | .help => .error .help
      | .version => .error .version
      | _ => .ok { s with verbosity := min 255 (s.verbosity + 1) }

/-- Reads an option with its value. -/
def attach (s : Scan) (level : Level) (o : Switch) (value : String) : Except Stop Scan :=
  match s.settle level with
  | .error e => .error e
  | .ok s => s.record level o value

/-- Reads an option whose value is the next argument. -/
def await (s : Scan) (level : Level) (o : Switch) : Except Stop Scan :=
  match s.settle level with
  | .error e => .error e
  | .ok s => .ok { s with pending? := some (.switch o none) }

/-- Reads the value of the option that waits for one. -/
def supply (s : Scan) (o : Switch) (value : String) : Scan :=
  { s with pending? := some (.switch o (some value)) }

/-- Whether an operand has been read. -/
def hasOperand (s : Scan) : Bool :=
  match s.pending? with
  | some (.operands _) => true
  | _ => !s.operands.isEmpty

/-- Reads an operand. -/
def operand (s : Scan) (level : Level) (value : String) : Except Stop Scan :=
  match s.pending? with
  | some (.operands values) => .ok { s with pending? := some (.operands (values ++ [value])) }
  | _ =>
      match s.settle level with
      | .error e => .error e
      | .ok s => .ok { s with pending? := some (.operands [value]) }

end Scan

/-- What the next argument is taken for. -/
inductive Mode where
  /-- An option or an operand. -/
  | ready
  /-- The value of an option. -/
  | awaiting (o : Switch)
  /-- An operand that may look like an option. -/
  | listing
  /-- An operand, after two dashes. -/
  | trailing
  deriving DecidableEq

/-- How an argument that looks like an option is to be taken. -/
inductive Taken where
  /-- As an option, after which comes what the mode says. -/
  | option (s : Scan) (mode : Mode)
  /-- As a value or an operand. -/
  | word

/-- The name and the value of a long option, from after its dashes. -/
def splitLong : List Char → List Char × Option (List Char)
  | [] => ([], none)
  | c :: cs =>
      if c = '=' then ([], some cs)
      else
        let (name, value?) := splitLong cs
        (c :: name, value?)

/-- Reads a long option from after its dashes. -/
def takeLong (level : Level) (s : Scan) (cs : List Char) : Except Stop Taken :=
  let (name, value?) := splitLong cs
  match level.ofLong? name with
  | none => if level.takesAny then .ok .word else .error (.usage .unknownArgument)
  | some o =>
      match o.takesValue, value? with
      | true, some value => (s.attach level o (String.ofList value)).map fun s => .option s .ready
      | true, none => (s.await level o).map fun s => .option s (.awaiting o)
      | false, some _ => .error (.usage .unneededValue)
      | false, none => (s.flag level o).map fun s => .option s .ready

/-- The value of a short option: the rest of its argument, without an equals sign. -/
def shortValue : List Char → String
  | '=' :: cs => String.ofList cs
  | cs => String.ofList cs

/-- Reads short options from after their dash. -/
def takeShort (level : Level) (s : Scan) : List Char → Except Stop Taken
  | [] => .ok (.option s .ready)
  | c :: cs =>
      match level.ofShort? c with
      | none => .error (.usage .unknownArgument)
      | some o =>
          if o.takesValue then
            if cs.isEmpty then (s.await level o).map fun s => .option s (.awaiting o)
            else (s.attach level o (shortValue cs)).map fun s => .option s .ready
          else
            match s.flag level o with
            | .error e => .error e
            | .ok s => takeShort level s cs

/-- Reads an argument that may be an option. -/
def takeOption (level : Level) (s : Scan) (arg : String) : Except Stop Taken :=
  match arg.toList with
  | '-' :: '-' :: cs => takeLong level s cs
  | '-' :: c :: cs =>
      if level.takesAny && (c :: cs).any fun c => (level.ofShort? c).isNone then .ok .word
      else takeShort level s (c :: cs)
  | _ => .ok .word

/-- Reads the operand of a command; `after` says what comes next. -/
def takeOperand (level : Level) (trailing : Bool) (s : Scan) (arg : String) :
    Except Stop (Scan × Mode) :=
  let next : Mode := if trailing then .trailing else if level.takesAny then .listing else .ready
  match level with
  | .top =>
      if trailing && (arg == "help" || (Level.ofName? arg).isSome) then
        .error (.usage .unknownArgument)
      else .error (.usage .invalidCommand)
  | .classify => (s.operand level arg).map fun s => (s, next)
  | .table => .error (.usage .unknownArgument)
  | _ =>
      if s.hasOperand then .error (.usage .unknownArgument)
      else (s.operand level arg).map fun s => (s, next)

/-- Reads one argument of a level. -/
def step (level : Level) (mode : Mode) (s : Scan) (arg : String) : Except Stop (Scan × Mode) :=
  match mode with
  | .trailing => takeOperand level true s arg
  | .listing => takeOperand level false s arg
  | .ready =>
      if arg = "--" then .ok (s, .trailing)
      else
        match takeOption level s arg with
        | .error e => .error e
        | .ok (.option s mode) => .ok (s, mode)
        | .ok .word => takeOperand level false s arg
  | .awaiting o =>
      if arg = "--" then .ok (s, .trailing)
      else
        match takeOption level s arg with
        | .error e => .error e
        | .ok (.option s mode) => .ok (s, mode)
        | .ok .word => .ok (s.supply o arg, .ready)

/-- Reads the arguments of a command. -/
def scanCommand (level : Level) : Mode → Scan → List String → Except Stop Scan
  | _, s, [] => s.settle level
  | mode, s, arg :: args =>
      match step level mode s arg with
      | .error e => .error e
      | .ok (s, mode) => scanCommand level mode s args

/-- What is asked for with the command `help`: help on the program or on one command. -/
def helpStop : List String → Stop
  | [] => .help
  | [name] => if name = "help" ∨ (Level.ofName? name).isSome then .help else .usage .invalidCommand
  | _ => .usage .invalidCommand

/-- Reads the arguments up to the command; gives the command and its arguments, if there is one. -/
def scanTop : Mode → Scan → List String → Except Stop (Scan × Option (Level × List String))
  | _, s, [] => .ok (s, none)
  | mode, s, arg :: args =>
      if mode = .ready ∧ arg = "help" then .error (helpStop args)
      else
        match (if mode = .ready then Level.ofName? arg else none) with
        | some level => .ok (s, some (level, args))
        | none =>
            match step .top mode s arg with
            | .error e => .error e
            | .ok (s, mode) => scanTop mode s args

end CommandLine

end TokenHighlight
