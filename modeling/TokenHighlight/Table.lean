import TokenHighlight.Config
import TokenHighlight.HintedError
import TokenHighlight.Kind.Groups

/-!
# Classification tables

A `Table` gives every kind a tag or none.  `build?` makes one from groups of kinds and fails if two
groups share a kind; `standard` is the default classification.  `configure` applies a configuration.
`get_set` says what setting one kind does to the others.
-/

namespace TokenHighlight

/-- An assignment of tags to kinds. -/
structure Table where
  /-- The tags, in the order of the kinds. -/
  tags : Vector (Option Tag) Kind.count
  deriving DecidableEq

/-- Why a table cannot be configured. -/
inductive TableError where
  /-- An override names no kind. -/
  | unknownKind (name : String)
  deriving DecidableEq

/-- The message about a table that cannot be configured. -/
def TableError.message : TableError → String
  | unknownKind name => "unknown token kind `" ++ name ++ "` in overrides"

instance : ToHintedError TableError := ⟨fun e => .ofMessage e.message⟩

namespace Table

/-- The tag of a kind. -/
def get (t : Table) (k : Kind) : Option Tag :=
  t.tags[(⟨k.index, k.index_lt_count⟩ : Fin Kind.count)]

/-- The table with another tag for one kind. -/
def set (t : Table) (k : Kind) (tag? : Option Tag) : Table :=
  ⟨t.tags.set k.index tag? k.index_lt_count⟩

/-- The table without tags. -/
def blank : Table := ⟨Vector.replicate Kind.count none⟩

/-- The kinds and their tags, in order. -/
def toList (t : Table) : List (Kind × Option Tag) := Kind.all.map fun k => (k, t.get k)

@[simp] theorem get_blank (k : Kind) : blank.get k = none := by
  simp [blank, get]

theorem get_set (t : Table) (k l : Kind) (tag? : Option Tag) :
    (t.set k tag?).get l = if l = k then tag? else t.get l := by
  simp only [get, set, Fin.getElem_fin, Vector.getElem_set]
  by_cases h : l = k
  · simp [h]
  · have : k.index ≠ l.index := fun e => h (Kind.index_inj e.symm)
    simp [h, this]

@[simp] theorem get_set_self (t : Table) (k : Kind) (tag? : Option Tag) :
    (t.set k tag?).get k = tag? := by
  simp [get_set]

/-! ## Groups -/

/-- Gives one kind the tag of a group; fails if the kind has a tag already. -/
def assign? (tag : Tag) (t : Table) (k : Kind) : Option Table :=
  match t.get k with
  | none => some (t.set k (some tag))
  | some _ => none

/-- Gives all kinds of a group its tag. -/
def addGroup? (t : Table) (group : KindSet × Tag) : Option Table :=
  group.1.toList.foldlM (assign? group.2) t

/-- The table of a list of groups, if no kind belongs to two of them. -/
def build? (groups : List (KindSet × Tag)) : Option Table :=
  groups.foldlM addGroup? blank

/-- The groups of the default classification. -/
def groups : List (KindSet × Tag) :=
  [(.ofList [.ident], .identifier),
    (.punctuation, .keyword),
    (.reserved, .keyword),
    (.typeNames, .keyword),
    (.literals, .keyword),
    (.embedded, .keyword),
    (.lexerLeftovers, .keyword),
    (.ofList [.quotedString], .stringLiteral),
    (.ofList [.lineComment], .lineComment),
    (.ofList [.blockComment], .blockComment)]

/-- The default classification. -/
def standard : Table := (build? groups).getD blank

instance : Inhabited Table := ⟨standard⟩

/-! ## Configurations -/

/-- The table without tags for the tokens that the lexer leaves over. -/
def clearLeftovers (t : Table) : Table :=
  KindSet.lexerLeftovers.toList.foldl (fun t k => t.set k none) t

/-- Reassigns the kind that a name stands for. -/
def override (t : Table) (entry : String × Classification) : Except TableError Table :=
  match Kind.ofName? entry.1 with
  | none => .error (.unknownKind entry.1)
  | some k => .ok (t.set k entry.2.tag?)

/-- The table changed by a configuration.  Overrides come last and are applied in the order of their
names, so the least unknown name is reported. -/
def configure (t : Table) (c : Config) : Except TableError Table :=
  c.overrides.entries.foldlM override (if c.keepLeftovers then t else t.clearLeftovers)

/-- The kinds with tags and their tags, between braces. -/
def display (t : Table) : String :=
  let shown := t.toList.filterMap fun (k, tag?) => tag?.map fun tag =>
    "\"" ++ k.name ++ "\": " ++ tagWord tag
  "\x7b" ++ String.intercalate ", " shown ++ "\x7d"
where
  /-- The name of a tag as one word. -/
  tagWord : Tag → String
    | .identifier => "Identifier"
    | .keyword => "Keyword"
    | .stringLiteral => "StringLiteral"
    | .lineComment => "LineComment"
    | .blockComment => "BlockComment"

end Table

end TokenHighlight
