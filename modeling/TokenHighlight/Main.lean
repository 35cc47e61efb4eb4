import TokenHighlight.Program.Run

/-!
# The program

The outer layer: `systemFiles` reads and writes the files of the machine, and `main` runs the program
on them.
-/

namespace TokenHighlight

/-- The error of the system behind a failed operation. -/
def OsError.ofSystem : IO.Error → OsError
  | .noFileOrDirectory _ code text => ⟨text, code.toNat⟩
  | .inappropriateType (some _) code text => ⟨text, code.toNat⟩
  | .inappropriateType none code text => ⟨text, code.toNat⟩
  | .permissionDenied _ code text => ⟨text, code.toNat⟩
  | .invalidArgument _ code text => ⟨text, code.toNat⟩
  | .resourceExhausted _ code text => ⟨text, code.toNat⟩
  | .alreadyExists _ code text => ⟨text, code.toNat⟩
  | .resourceBusy code text => ⟨text, code.toNat⟩
  | .otherError code text => ⟨text, code.toNat⟩
  | e => ⟨e.toString, 0⟩

/-- Reads a text file of the system. -/
def readSystemFile (path : String) : IO (Except FileError String) := do
  try
    match Entry.ofBytes (← IO.FS.readBinFile path) with
    | .text text => return .ok text
    | _ => return .error .notText
  catch e => return .error (.system (.ofSystem e))

/-- Writes a text file of the system. -/
def writeSystemFile (path text : String) : IO (Except OsError Unit) := do
  try
    IO.FS.writeFile path text
    return .ok ()
  catch e => return .error (.ofSystem e)

/-- The files of the machine. -/
def systemFiles : FileAccess IO := ⟨readSystemFile, writeSystemFile⟩

/-- A manual without texts. -/
def noManual : Manual := ⟨fun _ _ => "", fun _ _ => ""⟩

end TokenHighlight

open TokenHighlight in
/-- Runs the program. -/
def main (args : List String) : IO UInt32 := do
  let r ← Program.respond noManual systemFiles (← IO.getEnv "STREAMQL_CONFIG") args
  IO.print r.stdout
  IO.eprint r.stderr
  return r.exit.toUInt32
