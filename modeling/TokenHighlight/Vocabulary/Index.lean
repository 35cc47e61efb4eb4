import TokenHighlight.NameMap
import TokenHighlight.Vocabulary.Tokens

/-!
# Vocabularies with an index

An `IndexedVocabulary` finds the code of a name at the position of its entry, where a `Vocabulary`
searches all entries.  It is built up name by name: `push` puts a name behind the others and notes
its position, whether the name is new or not.  Who reads a tokens file asks the index whether a name
is new; the names of the known kinds are pushed without asking.
-/

namespace TokenHighlight

/-- A vocabulary and the positions of its names. -/
structure IndexedVocabulary extends Vocabulary where
  /-- The positions of names among the entries. -/
  positions : NameMap Nat

namespace IndexedVocabulary

/-- The vocabulary without names. -/
def empty : IndexedVocabulary where
  entries := []
  rules := []
  positions := .empty

/-- The vocabulary with one more name behind the others. -/
def push (x : IndexedVocabulary) (e : String × Int) : IndexedVocabulary :=
  { x with
    entries := x.entries ++ [e]
    positions := x.positions.insert e.1 x.entries.length }

/-- Whether a name has a position. -/
def contains (x : IndexedVocabulary) (name : String) : Bool := (x.positions.get? name).isSome

/-- The code at the position of a token name. -/
def token? (x : IndexedVocabulary) (name : String) : Option Int :=
  match x.positions.get? name with
  | none => none
  | some i => x.entries[i]?.map Prod.snd

/-- The element that a token name or else a rule name stands for. -/
def element? (x : IndexedVocabulary) (name : String) : Option Element :=
  match x.token? name with
  | some code => some (.token code)
  | none => (x.rule? name).map .rule

/-! ## Building up -/

/-- The vocabulary with the names of one more kind.  The end of the token stream is left out. -/
def pushKind (x : IndexedVocabulary) (k : Kind) : IndexedVocabulary :=
  if k = .eof then x else (Vocabulary.entriesOf k).foldl push x

/-- The vocabulary of the known kinds. -/
def builtin : IndexedVocabulary :=
  { Kind.all.foldl pushKind empty with rules := Vocabulary.grammarRules }

/-- The vocabulary with the entry on one more line, if there is one. -/
def readLine (x : IndexedVocabulary) (line : List Char) : Except LineError IndexedVocabulary :=
  let line := Text.trim line
  if line.isEmpty then .ok x
  else
    match Vocabulary.readEntry line with
    | .error cause => .error cause
    | .ok e => if x.contains e.1 then .error (.duplicateName e.1.toList) else .ok (x.push e)

/-- The vocabulary with the entries on the lines from number `number` on. -/
def readLines (x : IndexedVocabulary) (number : Nat) :
    List (List Char) → Except TokensError IndexedVocabulary
  | [] => .ok x
  | line :: lines =>
      match x.readLine line with
      | .error cause => .error ⟨number, cause⟩
      | .ok y => y.readLines (number + 1) lines

/-- The vocabulary of a tokens file. -/
def ofTokens (text : String) : Except TokensError IndexedVocabulary :=
  empty.readLines 1 (Text.lines text.toList)

end IndexedVocabulary

end TokenHighlight
