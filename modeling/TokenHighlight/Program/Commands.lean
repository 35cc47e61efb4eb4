import TokenHighlight.Program.Failure
import TokenHighlight.Program.Log
import TokenHighlight.Program.Render

/-!
# Commands

`Command.plan` says what a command does, given what is in the files that it reads: what it logs and
prints, which file it writes and how it ends.  A plan changes nothing; a command writes at most one
file, after everything else has succeeded.
-/

namespace TokenHighlight

/-- What reading a file gives. -/
abbrev FileReader := String → Except FileError String

/-- How a command ends. -/
inductive Ending where
  /-- All is well. -/
  | success
  /-- The command finds a difference and says so in its output. -/
  | drift
  /-- The command does not finish. -/
  | failure (f : Failure)
  deriving DecidableEq

/-- What a command does. -/
structure Plan where
  /-- What it logs. -/
  events : List Event
  /-- What it prints. -/
  printed : String
  /-- The file that it writes and the text in it. -/
  file? : Option (String × String)
  /-- How it ends. -/
  ending : Ending
  deriving DecidableEq

namespace Plan

/-- Prints a text and ends well. -/
def print (events : List Event) (text : String) : Plan := ⟨events, text, none, .success⟩

/-- Writes a file and ends well. -/
def write (events : List Event) (path text : String) : Plan :=
  ⟨events, "", some (path, text), .success⟩

/-- Fails without having printed anything. -/
def fail (events : List Event) (f : Failure) : Plan := ⟨events, "", none, .failure f⟩

end Plan

/-! ## Reading the inputs -/

/-- Reads a text file. -/
def readSource (read : FileReader) (path : String) : Except Failure String :=
  (read path).mapError (.unreadable path)

/-- What a configuration notes when it has been applied. -/
def configEvents (path : String) (c : Config) : List Event :=
  [.configured c.keepLeftovers c.overrides.size, .loadedConfig path]

/-- The table of a configuration file. -/
def configuredTable (path text : String) : Except Failure (Table × List Event) :=
  match Config.ofToml text with
  | .error e => .error (.badConfig path e)
  | .ok c =>
      match Table.standard.configure c with
      | .error e => .error (.badOverride e)
      | .ok t => .ok (t, configEvents path c)

/-- The table to use: the default one, or the one of a configuration file. -/
def loadTable (read : FileReader) : Option String → Except Failure (Table × List Event)
  | none => .ok (.standard, [])
  | some path =>
      match readSource read path with
      | .error f => .error f
      | .ok text => configuredTable path text

/-- Reads a token stream. -/
def loadStream (read : FileReader) (path : String) : Except Failure (List StreamToken) :=
  match readSource read path with
  | .error f => .error f
  | .ok text => (TokenStream.read text).mapError (.badStream path)

/-- What is noted about the kind of a token. -/
def KindRef.event? (v : Vocabulary) (k : KindRef) : Option Event :=
  if k.isKnown v then none
  else
    match k with
    | code n => some (.codeOutOfRange n)
    | name s => some (.unknownKind s)

/-! ## Classifying kinds -/

/-- The line about an element. -/
def Table.describe (t : Table) (v : Vocabulary) (e : Element) : String :=
  v.describe e ++ ": " ++ ((t.classify e).map Tag.name).getD "none" ++ "\n"

/-- The lines about kinds up to the first that stands for nothing. -/
def Table.classifyAll (t : Table) (v : Vocabulary) : List String → String × Ending
  | [] => ("", .success)
  | kind :: kinds =>
      match v.resolve kind with
      | .error e => ("", .failure (.unknownKind e))
      | .ok e =>
          let (text, ending) := t.classifyAll v kinds
          (t.describe v e ++ text, ending)

/-- Classifies kinds. -/
def classifyPlan (read : FileReader) (config? : Option String) (kinds : List String) : Plan :=
  match loadTable read config? with
  | .error f => .fail [] f
  | .ok (t, events) =>
      let (text, ending) := t.classifyAll .builtin kinds
      ⟨events, text, none, ending⟩

/-! ## Printing the table -/

/-- Prints the classification table. -/
def tablePlan (read : FileReader) (config? : Option String) (format : TableFormat) : Plan :=
  match loadTable read config? with
  | .error f => .fail [] f
  | .ok (t, events) => .print events (t.render format ++ "\n")

/-! ## Checking a tokens file -/

/-- What is noted about a vocabulary that is checked. -/
def checkEvents (v : Vocabulary) : List Event :=
  let r := v.sync
  .checking v.symbolic.length ::
    if r.isInSync then []
    else [.outOfSync r.unknown.length r.mismatched.length r.missing.length]

/-- Checks a tokens file against the known kinds. -/
def checkPlan (read : FileReader) (tokens : String) (format? : Option ReportFormat) : Plan :=
  match readSource read tokens with
  | .error f => .fail [] f
  | .ok text =>
      match Vocabulary.ofTokens text with
      | .error e => .fail [] (.badTokens tokens e)
      | .ok v =>
          ⟨checkEvents v, v.sync.render format?, none,
            if v.sync.isInSync then .success else .drift⟩

/-! ## Highlighting a text -/

/-- What is noted before a text is highlighted. -/
def streamEvents (input : String) (stream : List StreamToken) : List Event :=
  stream.filterMap (fun t => t.kind.event? .builtin) ++ [.highlighting input stream.length]

/-- Highlights a text that has been read. -/
def renderPlan (t : Table) (events : List Event) (text : String) (tokens : List Token)
    (output? : Option String) (format : HighlightFormat) : Plan :=
  match t.highlight format text tokens, output? with
  | .error e, _ => .fail events (.badSpan e)
  | .ok rendered, some path => .write events path rendered
  | .ok rendered, none => .print events (rendered ++ "\n")

/-- Highlights a text with its token stream. -/
def highlightPlan (read : FileReader) (config? : Option String) (input tokens : String)
    (output? : Option String) (format : HighlightFormat) : Plan :=
  match loadTable read config? with
  | .error f => .fail [] f
  | .ok (t, events) =>
      match readSource read input with
      | .error f => .fail events f
      | .ok text =>
          match loadStream read tokens with
          | .error f => .fail events f
          | .ok stream =>
              renderPlan t (events ++ streamEvents input stream) text
                (stream.map (StreamToken.token .builtin)) output? format

/-! ## All commands -/

/-- What a command does. -/
def Command.plan (read : FileReader) (config? : Option String) : Command → Plan
  | classify kinds => classifyPlan read config? kinds
  | table format => tablePlan read config? format
  | check tokens format? => checkPlan read tokens format?
  | highlight input tokens output? format =>
      highlightPlan read config? input tokens output? format

/-- The files that a command may read, given the configuration file. -/
def Command.sources (config? : Option String) : Command → List String
  | classify _ => config?.toList
  | table _ => config?.toList
  | check tokens _ => [tokens]
  | highlight input tokens _ _ => config?.toList ++ [input, tokens]

end TokenHighlight
