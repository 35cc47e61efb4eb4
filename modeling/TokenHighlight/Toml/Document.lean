import TokenHighlight.Toml.Number
import TokenHighlight.Toml.Text
import TokenHighlight.Toml.Tree

/-!
# TOML documents

`Toml.parse?` reads a document and gives the fields of its table, or nothing if the text is no TOML.
A document is a list of `Expression`s: pairs, headers of tables and headers of arrays of tables.
-/

namespace TokenHighlight

namespace Toml

/-! ## Values -/

/-- The text after the blanks, comments and line ends between the items of an array. -/
def skipLines : Nat → List Char → Option (List Char)
  | 0, cs => some cs
  | fuel + 1, cs =>
      match skipComment (skipBlanks cs) with
      | '\n' :: cs => skipLines fuel cs
      | '\r' :: '\n' :: cs => skipLines fuel cs
      | '\r' :: _ => none
      | rest => if (skipBlanks cs).head? = some '#' then none else some rest

/-- The table of the pairs of an inline table. -/
def inlineTable? (pairs : List (List String × Value)) : Option Value :=
  (Node.addPairs pairs []).map fun fields => .table (Node.toFields fields)

mutual

/-- A value, nested at most `depth` deep; `fuel` bounds the number of steps. -/
def readValue : Nat → Nat → List Char → Option (Value × List Char)
  | 0, _, _ => none
  | fuel + 1, depth, cs =>
      match cs with
      | [] => none
      | '[' :: cs =>
          match depth with
          | 0 => none
          | depth + 1 =>
              match readItems fuel depth cs with
              | none => none
              | some (items, rest) => some (.array items, rest)
      | '\x7b' :: cs =>
          match depth with
          | 0 => none
          | depth + 1 =>
              match readPairs fuel depth cs with
              | none => none
              | some (pairs, rest) => (inlineTable? pairs).map fun x => (x, rest)
      | 't' :: 'r' :: 'u' :: 'e' :: cs => some (.boolean true, cs)
      | 'f' :: 'a' :: 'l' :: 's' :: 'e' :: cs => some (.boolean false, cs)
      | c :: cs =>
          if c = '"' ∨ c = '\x27' then
            (readString (c :: cs)).map fun (s, rest) => (.string (String.ofList s), rest)
          else readNumber (c :: cs)

/-- The items of an array up to its closing bracket. -/
def readItems : Nat → Nat → List Char → Option (List Value × List Char)
  | 0, _, _ => none
  | fuel + 1, depth, cs =>
      match skipLines fuel cs with
      | none => none
      | some (']' :: cs) => some ([], cs)
      | some cs =>
          match readValue fuel depth cs with
          | none => none
          | some (x, cs) =>
              match skipLines fuel cs with
              | some (']' :: cs) => some ([x], cs)
              | some (',' :: cs) => (readItems fuel depth cs).map fun (xs, rest) => (x :: xs, rest)
              | _ => none

/-- The pairs of an inline table up to its closing brace. -/
def readPairs : Nat → Nat → List Char → Option (List (List String × Value) × List Char)
  | 0, _, _ => none
  | fuel + 1, depth, cs =>
      match skipBlanks cs with
      | '\x7d' :: cs => some ([], cs)
      | cs => readMorePairs fuel depth cs

/-- One or more pairs of an inline table up to its closing brace. -/
def readMorePairs : Nat → Nat → List Char → Option (List (List String × Value) × List Char)
  | 0, _, _ => none
  | fuel + 1, depth, cs =>
      match readKey cs with
      | some (key, '=' :: cs) =>
          match readValue fuel depth (skipBlanks cs) with
          | none => none
          | some (x, cs) =>
              match skipBlanks cs with
              | '\x7d' :: cs => some ([(key, x)], cs)
              | ',' :: cs =>
                  (readMorePairs fuel depth cs).map fun (ps, rest) => ((key, x) :: ps, rest)
              | _ => none
      | _ => none

end

/-! ## Expressions -/

/-- A line of a document that says something. -/
inductive Expression where
  /-- A key with its value. -/
  | pair (key : List String) (x : Value)
  /-- The header of a table. -/
  | table (key : List String)
  /-- The header of a table in an array. -/
  | tables (key : List String)

/-- A pair with the end of its line. -/
def readPair (cs : List Char) : Option (Expression × List Char) :=
  match readKey cs with
  | some (key, '=' :: cs) =>
      match readValue (2 * cs.length + 2) maxDepth (skipBlanks cs) with
      | none => none
      | some (x, cs) => (lineEnd? cs).map fun rest => (.pair key x, rest)
  | _ => none

/-- A header from after its first bracket, with the end of its line. -/
def readHeader : List Char → Option (Expression × List Char)
  | '[' :: cs =>
      match readKey cs with
      | some (key, ']' :: ']' :: cs) => (lineEnd? cs).map fun rest => (.tables key, rest)
      | _ => none
  | cs =>
      match readKey cs with
      | some (key, ']' :: cs) => (lineEnd? cs).map fun rest => (.table key, rest)
      | _ => none

/-- The expressions of a document, at most `fuel` lines. -/
def readExpressions : Nat → List Char → Option (List Expression)
  | 0, cs => if cs.isEmpty then some [] else none
  | fuel + 1, cs =>
      match skipBlanks cs with
      | [] => some []
      | '\n' :: cs => readExpressions fuel cs
      | '\r' :: '\n' :: cs => readExpressions fuel cs
      | '#' :: cs =>
          match lineEnd? ('#' :: cs) with
          | none => none
          | some cs => readExpressions fuel cs
      | '[' :: cs =>
          match readHeader cs with
          | none => none
          | some (e, cs) => (readExpressions fuel cs).map (e :: ·)
      | cs =>
          match readPair cs with
          | none => none
          | some (e, cs) => (readExpressions fuel cs).map (e :: ·)

/-! ## Documents -/

/-- The pairs up to the next header, and the rest. -/
def leadingPairs : List Expression → List (List String × Value) × List Expression
  | .pair key x :: es =>
      let (pairs, rest) := leadingPairs es
      ((key, x) :: pairs, rest)
  | es => ([], es)

/-- Adds the tables of the expressions from a header on, at most `fuel` of them. -/
def addSections : Nat → List Expression → Fields → Option Fields
  | _, [], fields => some fields
  | 0, _ :: _, _ => none
  | fuel + 1, e :: es, fields =>
      let (pairs, rest) := leadingPairs es
      let added :=
        match e with
        | .pair _ _ => none
        | .table key =>
            key.getLast?.bind fun name => Node.addTable key.dropLast name pairs fields
        | .tables key =>
            key.getLast?.bind fun name => Node.addTables key.dropLast name pairs fields
      added.bind (addSections fuel rest)

/-- The fields of the table of a document. -/
def assemble? (es : List Expression) : Option (List (String × Value)) := do
  let (pairs, rest) := leadingPairs es
  let fields ← Node.addPairs pairs []
  let fields ← addSections rest.length rest fields
  return Node.toFields fields

/-- The text after a byte order mark. -/
def skipMark : List Char → List Char
  | c :: cs => if c.toNat = 0xFEFF then cs else c :: cs
  | [] => []

/-- The fields of the table of a document, in document order. -/
def parse? (text : String) : Option (List (String × Value)) :=
  let cs := skipMark text.toList
  (readExpressions (cs.length + 1) cs).bind assemble?

end Toml

end TokenHighlight
