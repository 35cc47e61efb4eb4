import TokenHighlight.Data
import TokenHighlight.Vocabulary

/-!
# Comparing a vocabulary with the known kinds

`Vocabulary.sync` reports the names of a vocabulary that stand for no known kind, those whose code
differs from the code of their kind, and the kinds without a symbolic name.  `SyncReport.patch`
makes the changes that a report asks for.
-/

namespace TokenHighlight

/-- A token name with another code than its kind. -/
structure Mismatch where
  /-- The symbolic or quoted name. -/
  name : String
  /-- The kind that the name stands for. -/
  kind : Kind
  /-- The code of the kind. -/
  expected : Int
  /-- The code in the vocabulary. -/
  found : Int
  deriving DecidableEq

/-- The differences between a vocabulary and the known kinds. -/
structure SyncReport where
  /-- The entries whose names stand for no known kind. -/
  unknown : List (String × Int)
  /-- The entries whose codes differ from those of their kinds. -/
  mismatched : List Mismatch
  /-- The kinds whose symbolic names the vocabulary lacks. -/
  missing : List Kind
  deriving DecidableEq

/-- The kind that a token name stands for: quoted names are spellings, others symbolic names. -/
def Kind.ofTokenName? (name : String) : Option Kind :=
  if isLiteralName name.toList then Kind.ofLiteral? name else Kind.ofName? name

namespace SyncReport

/-- Whether there is no difference. -/
def isInSync (r : SyncReport) : Bool :=
  r.unknown.isEmpty && r.mismatched.isEmpty && r.missing.isEmpty

/-- The mismatch of an entry, if its kind has another code. -/
def mismatch? (e : String × Int) : Option Mismatch :=
  match Kind.ofTokenName? e.1 with
  | none => none
  | some k => if k.code = e.2 then none else some ⟨e.1, k, k.code, e.2⟩

/-- The report as data. -/
def toData (r : SyncReport) : Data :=
  .record
    [("unknown", .list (r.unknown.map fun e => .list [.text e.1, .int e.2])),
      ("mismatched", .list (r.mismatched.map fun m => .record
        [("name", .text m.name), ("kind", .text m.kind.name), ("expected", .int m.expected),
          ("found", .int m.found)])),
      ("missing", .list (r.missing.map fun k => .text k.name))]

/-- The entries without the unknown ones, with the codes that were expected and with the missing
kinds at the end. -/
def patch (r : SyncReport) (v : Vocabulary) : Vocabulary :=
  let known := v.entries.filter fun e => !r.unknown.contains e
  let corrected := known.map fun e =>
    match r.mismatched.find? fun m => m.name == e.1 with
    | some m => (e.1, m.expected)
    | none => e
  { v with entries := corrected ++ r.missing.map fun k => (k.name, k.code) }

end SyncReport

/-- The differences between a vocabulary and the known kinds.  The end of the token stream may be
missing. -/
def Vocabulary.sync (v : Vocabulary) : SyncReport where
  unknown := v.entries.filter fun e => (Kind.ofTokenName? e.1).isNone
  mismatched := v.entries.filterMap SyncReport.mismatch?
  missing := Kind.all.filter fun k => k != .eof && (v.token? k.name).isNone

end TokenHighlight
