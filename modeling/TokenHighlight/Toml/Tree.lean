import TokenHighlight.Toml.Value

/-!
# Building TOML tables

A document names its tables in pieces.  A `Node` is a table under construction: it remembers how a
table came about, because a table must not be defined twice.  `Node.change` descends along a path
and makes the tables that are missing; `addPair`, `addTable` and `addTables` are the three ways in
which a document grows.
-/

namespace TokenHighlight

namespace Toml

/-- How a table came about. -/
inductive Origin where
  /-- By a header of its own, or as the table of the document. -/
  | header
  /-- By the header of a table inside it. -/
  | implied
  /-- By a dotted key. -/
  | dotted
  deriving DecidableEq

/-- A value or a table under construction. -/
inductive Node where
  /-- A finished value. -/
  | value (x : Value)
  /-- A table. -/
  | table (origin : Origin) (fields : List (String × Node))
  /-- An array of tables, the fields of each of them. -/
  | tables (items : List (List (String × Node)))

/-- The fields of a table under construction. -/
abbrev Fields := List (String × Node)

namespace Fields

/-- The fields with another node for a name, in the same place. -/
def replace (name : String) (node : Node) : Fields → Fields
  | [] => []
  | f :: fs => if f.1 = name then (name, node) :: fs else f :: replace name node fs

/-- The fields without a name. -/
def remove (name : String) (fs : Fields) : Fields := fs.filter fun f => f.1 != name

/-- The fields with a new one at the end. -/
def add (name : String) (node : Node) (fs : Fields) : Fields := fs ++ [(name, node)]

end Fields

namespace Node

/-- Changes the table at a path.  Tables on the way that are missing are made, in the way that
`dotted` says; an array of tables stands for its last table.  A dotted key must not go through a
table with a header of its own. -/
def change (dotted : Bool) (f : Origin → Fields → Option Fields) :
    List String → Origin → Fields → Option Fields
  | [], origin, fields => f origin fields
  | name :: path, _, fields =>
      match fields.lookup name with
      | none =>
          let origin := if dotted then .dotted else .implied
          (change dotted f path origin []).map fun inner =>
            Fields.add name (.table origin inner) fields
      | some (.value _) => none
      | some (.tables items) =>
          match items.getLast? with
          | none => none
          | some last =>
              (change dotted f path .header last).map fun inner =>
                Fields.replace name (.tables (items.dropLast ++ [inner])) fields
      | some (.table origin inner) =>
          if dotted && origin == .header then none
          else
            (change dotted f path origin inner).map fun inner =>
              Fields.replace name (.table origin inner) fields

/-- Adds the value of a dotted key to a table. -/
def addPair (path : List String) (name : String) (x : Value) (fields : Fields) : Option Fields :=
  change true (fun origin fields =>
    if (origin == .dotted) == path.isEmpty then none
    else
      match fields.lookup name with
      | none => some (Fields.add name (.value x) fields)
      | some _ => none) path .header fields

/-- Adds the values of several dotted keys to a table. -/
def addPairs (pairs : List (List String × Value)) (fields : Fields) : Option Fields :=
  pairs.foldlM (fun fields (key, x) =>
    match key.getLast? with
    | none => none
    | some name => addPair key.dropLast name x fields) fields

/-- Adds a table with a header.  A table that so far was only implied is completed, and takes its
place after the tables before it. -/
def addTable (path : List String) (name : String) (pairs : List (List String × Value))
    (fields : Fields) : Option Fields :=
  change false (fun _ fields =>
    match fields.lookup name with
    | none => (addPairs pairs []).map fun inner => Fields.add name (.table .header inner) fields
    | some (.table .implied inner) =>
        (addPairs pairs inner).map fun inner =>
          Fields.add name (.table .header inner) (Fields.remove name fields)
    | some _ => none) path .header fields

/-- Adds a table to an array of tables. -/
def addTables (path : List String) (name : String) (pairs : List (List String × Value))
    (fields : Fields) : Option Fields :=
  change false (fun _ fields =>
    match fields.lookup name with
    | none => (addPairs pairs []).map fun inner => Fields.add name (.tables [inner]) fields
    | some (.tables items) =>
        (addPairs pairs []).map fun inner =>
          Fields.replace name (.tables (items ++ [inner])) fields
    | some _ => none) path .header fields

mutual

/-- The finished value. -/
def toValue : Node → Value
  | value x => x
  | table _ fields => .table (toFields fields)
  | tables items => .tables (toItems items)

/-- The finished fields of a table. -/
def toFields : List (String × Node) → List (String × Value)
  | [] => []
  | f :: fs => toField f :: toFields fs

/-- A finished field. -/
def toField : String × Node → String × Value
  | (name, node) => (name, toValue node)

/-- The finished tables of an array. -/
def toItems : List (List (String × Node)) → List Value
  | [] => []
  | fields :: items => .table (toFields fields) :: toItems items

end

end Node

end Toml

end TokenHighlight
