import TokenHighlight.Number.Decimal
import TokenHighlight.Text.Lines
import TokenHighlight.Text.Utf8

/-!
# Files

`Files` is what the program sees of the file system: a tree with a root and a working directory.
`read` and `write` take a path as a user writes it, with slashes and dots, and fail like the operating
system does.  A path starts at the root or at the working directory.  A write either completes or
changes nothing.  `FileAccess` is what a program needs of a file system, and `Files.access` gives it
for a tree.
-/

namespace TokenHighlight

/-- An error of the operating system. -/
structure OsError where
  /-- What the system calls the error. -/
  text : String
  /-- The number of the error. -/
  code : Nat
  deriving DecidableEq

namespace OsError

/-- There is no such file. -/
def noSuchFile : OsError := ⟨"No such file or directory", 2⟩

/-- A part of a path is no directory. -/
def notADirectory : OsError := ⟨"Not a directory", 20⟩

/-- The file is a directory. -/
def isADirectory : OsError := ⟨"Is a directory", 21⟩

/-- A part of a path is too long. -/
def nameTooLong : OsError := ⟨"File name too long", 36⟩

/-- The error with its number. -/
def message (e : OsError) : String :=
  e.text ++ " (os error " ++ String.ofList (Decimal.ofNat e.code) ++ ")"

end OsError

/-- Why a text cannot be read from a file. -/
inductive FileError where
  /-- The system fails. -/
  | system (e : OsError)
  /-- The file is not in UTF-8. -/
  | notText
  deriving DecidableEq

/-- The message about a file that cannot be read. -/
def FileError.message : FileError → String
  | system e => e.message
  | notText => "stream did not contain valid UTF-8"

/-- What is found in the file system. -/
inductive Entry where
  /-- A file in UTF-8. -/
  | text (s : String)
  /-- A file that is not in UTF-8. -/
  | binary
  /-- The null device, which reads as empty and takes every text without keeping it. -/
  | null
  /-- A directory. -/
  | directory
  deriving DecidableEq

/-- The file with given bytes. -/
def Entry.ofBytes (bytes : ByteArray) : Entry :=
  match String.fromUTF8? bytes with
  | some s => text s
  | none => binary

/-- A tree of files.  A place is given by the names on the way from the root.  Where an entry stands,
the directories on the way to it exist too. -/
structure Files where
  /-- The place of the working directory. -/
  workingDirectory : List String
  /-- The entries with their places. -/
  entries : List (List String × Entry)
  deriving DecidableEq

/-- A path as the system takes it apart. -/
structure Path where
  /-- Whether the path starts at the root. -/
  isAbsolute : Bool
  /-- The names before the last. -/
  way : List String
  /-- The last name, if there is any name. -/
  last? : Option String
  /-- Whether a slash stands after the last name. -/
  hasSlash : Bool
  deriving DecidableEq

namespace Path

/-- The length of the longest path, in bytes. -/
def longest : Nat := 4095

/-- The length of the longest name, in bytes. -/
def longestName : Nat := 255

/-- Whether a name is too long. -/
def isLongName (name : String) : Bool := longestName < Text.byteLength name.toList

/-- Takes a path apart. -/
def ofText (s : String) : Path :=
  let names := ((Text.splitOn '/' s.toList).filter (!·.isEmpty)).map String.ofList
  ⟨s.toList.head? == some '/', names.dropLast, names.getLast?, s.toList.getLast? == some '/'⟩

/-- Takes a path apart that a user gives. -/
def parse (s : String) : Except OsError Path :=
  if longest < Text.byteLength s.toList then .error .nameTooLong else .ok (ofText s)

end Path

namespace Files

/-- What stands at a place. -/
def find? (fs : Files) (place : List String) : Option Entry :=
  match fs.entries.lookup place with
  | some entry => some entry
  | none =>
      if place.isEmpty || fs.entries.any (fun e => place.isPrefixOf e.1) then some .directory
      else none

/-- Why there is nothing of a given name. -/
def missing (name : String) : OsError :=
  if Path.isLongName name then .nameTooLong else .noSuchFile

/-- The place of a directory that a name on the way leads to.  The root is the directory above
itself. -/
def enter (fs : Files) (place : List String) (name : String) : Except OsError (List String) :=
  if name = "." then .ok place
  else if name = ".." then .ok place.dropLast
  else
    match fs.find? (place ++ [name]) with
    | some .directory => .ok (place ++ [name])
    | some _ => .error .notADirectory
    | none => .error (missing name)

/-- The names from the root to the directory that a path leads to. -/
def wayOf (fs : Files) (p : Path) : List String :=
  if p.isAbsolute then p.way else fs.workingDirectory ++ p.way

/-- The place of the directory and the last name that a path leads to.  A path without a last name,
or with dots for it, leads to a directory. -/
def locate (fs : Files) (p : Path) : Except OsError (List String × String) :=
  match p.last? with
  | none => .error (if p.isAbsolute then .isADirectory else .noSuchFile)
  | some name =>
      match (fs.wayOf p).foldlM fs.enter [] with
      | .error e => .error e
      | .ok place =>
          if name = "." || name = ".." then .error .isADirectory else .ok (place, name)

/-- Reads a text file. -/
def read (fs : Files) (path : String) : Except FileError String :=
  match Path.parse path with
  | .error e => .error (.system e)
  | .ok p =>
      match fs.locate p with
      | .error e => .error (.system e)
      | .ok (place, name) =>
          match fs.find? (place ++ [name]) with
          | none => .error (.system (missing name))
          | some .directory => .error (.system .isADirectory)
          | some (.text s) => if p.hasSlash then .error (.system .notADirectory) else .ok s
          | some .binary => .error (if p.hasSlash then .system .notADirectory else .notText)
          | some .null => if p.hasSlash then .error (.system .notADirectory) else .ok ""

/-- The tree with another entry at one place. -/
def put (fs : Files) (place : List String) (entry : Entry) : Files :=
  { fs with entries := fs.entries.filter (fun e => e.1 != place) ++ [(place, entry)] }

/-- Writes a text file. -/
def write (fs : Files) (path : String) (text : String) : Except OsError Files :=
  match Path.parse path with
  | .error e => .error e
  | .ok p =>
      match fs.locate p with
      | .error e => .error e
      | .ok (place, name) =>
          if p.hasSlash then .error .isADirectory
          else
            match fs.find? (place ++ [name]) with
            | some .directory => .error .isADirectory
            | some .null => .ok fs
            | some _ => .ok (fs.put (place ++ [name]) (.text text))
            | none =>
                if Path.isLongName name then .error .nameTooLong
                else .ok (fs.put (place ++ [name]) (.text text))

/-- A tree with the null device and an empty working directory. -/
def empty : Files := ⟨["tmp", "work"], [(["tmp", "work"], .directory), (["dev", "null"], .null)]⟩

/-- The tree of a list of paths and entries. -/
def ofList (entries : List (String × Entry)) : Files :=
  entries.foldl
    (fun fs e => fs.put (fs.wayOf (Path.ofText e.1) ++ (Path.ofText e.1).last?.toList) e.2) empty

end Files

/-! ## Access -/

/-- Reading and writing text files, in the monad that a program runs in. -/
structure FileAccess (m : Type → Type) where
  /-- Reads the file that a path leads to. -/
  read : String → m (Except FileError String)
  /-- Writes a text to the file that a path leads to. -/
  write : String → String → m (Except OsError Unit)

/-- Reading and writing in a tree. -/
def Files.access : FileAccess (StateM Files) where
  read path := do return (← get).read path
  write path text := do
    match (← get).write path text with
    | .error e => return .error e
    | .ok files =>
        set files
        return .ok ()

end TokenHighlight
