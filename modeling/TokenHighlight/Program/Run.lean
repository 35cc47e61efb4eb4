import TokenHighlight.CommandLine.Parser
import TokenHighlight.Program.Commands

/-!
# Runs of the program

`Program.respond` is a whole run: it takes the arguments apart, reads the files that they name, plans
the command, writes the file of the plan and says what the user gets back.  It is given the access to
the files, so that the same run takes place in a tree of files (`Program.run`) and in the file system
of a machine.
-/

namespace TokenHighlight

/-- What the user gets back from a run. -/
structure Response where
  /-- The exit code. -/
  exit : Nat
  /-- The standard output. -/
  stdout : String
  /-- The standard error. -/
  stderr : String
  deriving DecidableEq

/-- What a run leaves behind. -/
structure Outcome extends Response where
  /-- The files. -/
  files : Files
  deriving DecidableEq

/-- What a run in a tree of files leaves behind. -/
def Outcome.ofRun (run : StateM Files Response) (files : Files) : Outcome :=
  let (r, files) := run.run files
  ⟨r, files⟩

namespace Ending

/-- The exit code. -/
def exit : Ending → Nat
  | success => 0
  | drift => 1
  | failure _ => 1

/-- What the user is told about a failure. -/
def complaint (colored : Bool) : Ending → String
  | success => ""
  | drift => ""
  | failure f => f.report.printed colored

end Ending

section

variable {m : Type → Type} [Monad m]

/-- Reads some files. -/
def FileAccess.readAll (access : FileAccess m) : List String → m FileReader
  | [] => return fun _ => .error (.system .noSuchFile)
  | path :: paths => do
      let text ← access.read path
      let read ← access.readAll paths
      return fun p => if p = path then text else read p

/-- Writes the file of a plan and says how the plan ends: a file that cannot be written makes it
fail. -/
def Plan.carryOut (access : FileAccess m) (p : Plan) : m Ending :=
  match p.file? with
  | none => return p.ending
  | some (path, text) => do
      match ← access.write path text with
      | .error e => return .failure (.unwritable path e)
      | .ok () => return p.ending

namespace Arguments

/-- What the arguments ask for. -/
def plan (a : Arguments) (read : FileReader) : Plan := a.command.plan read a.config?

/-- The files that may be read. -/
def sources (a : Arguments) : List String := a.command.sources a.config?

/-- The standard error of a run with a given ending. -/
def stderr (a : Arguments) (events : List Event) (ending : Ending) : String :=
  Event.log a.verbosity events ++ ending.complaint a.color.isColored

/-- A run with arguments that have been read. -/
def respond (access : FileAccess m) (a : Arguments) : m Response := do
  let read ← access.readAll a.sources
  let p := a.plan read
  let ending ← p.carryOut access
  return ⟨ending.exit, p.printed, a.stderr p.events ending⟩

/-- A run in a tree of files with arguments that have been read. -/
def run (a : Arguments) (files : Files) : Outcome := .ofRun (a.respond Files.access) files

end Arguments

/-! ## Arguments that start no run -/

/-- The texts about the arguments, for the configuration file that the environment names and the
arguments.  They are written elsewhere. -/
structure Manual where
  /-- How to call the program. -/
  help : Option String → List String → String
  /-- What is wrong with the arguments. -/
  usage : Option String → List String → String

namespace Program

/-- The name and version of the program. -/
def version : String := "streamql 0.1.0\n"

/-- A run that does not start. -/
def stopped (manual : Manual) (default? : Option String) (args : List String) : Stop → Response
  | .usage _ => ⟨2, "", manual.usage default? args⟩
  | .help => ⟨0, manual.help default? args, ""⟩
  | .version => ⟨0, version, ""⟩

/-- A run, given the configuration file that the environment names and the arguments. -/
def respond (manual : Manual) (access : FileAccess m) (default? : Option String)
    (args : List String) : m Response :=
  match Arguments.parse default? args with
  | .ok a => a.respond access
  | .error stop => return stopped manual default? args stop

/-- A run in a tree of files. -/
def run (manual : Manual) (default? : Option String) (args : List String) (files : Files) :
    Outcome :=
  .ofRun (respond manual Files.access default? args) files

end Program

end

end TokenHighlight
