import TokenHighlight.Proofs.Program.Classify
import TokenHighlight.Proofs.Program.Complaint
import TokenHighlight.Proofs.Program.Configuration
import TokenHighlight.Proofs.Table.Classify

/-!
# How far kinds are classified

The kinds are answered one after the other up to the first that means nothing, so what is printed is
about the longest prefix of kinds that all mean something (`Program.run_classify_longestPrefix`).
The first kind after it is what the error is about, and the kinds behind that are never looked at.
-/

namespace TokenHighlight

open Text (HasLines)

/-! ## Prefixes -/

namespace Vocabulary

/-- The longest prefix of some kinds in which every kind means something. -/
structure IsLongestPrefix (v : Vocabulary) (kinds named : List String) : Prop where
  isPrefix : named <+: kinds
  means : ∀ kind ∈ named, ∃ e, v.Means kind e
  longest : ∀ ks, ks <+: kinds → (∀ kind ∈ ks, ∃ e, v.Means kind e) → ks <+: named

/-- The words for an element: the name of its kind or its rule, if it has one, with its number. -/
inductive Describes : Element → String → Prop
  | kind (k : Kind) :
      Describes (.ofKind k) (k.name ++ " (" ++ String.ofList (Decimal.ofInt k.code) ++ ")")
  | unknown {c : Int} (h : ∀ k : Kind, k.code ≠ c) :
      Describes (.token c) ("unknown token (" ++ String.ofList (Decimal.ofInt c) ++ ")")
  | rule {i : Nat} {s : String} (h : builtin.ruleName? i = some s) :
      Describes (.rule i) ("rule " ++ s ++ " (" ++ String.ofList (Decimal.ofNat i) ++ ")")

variable {v : Vocabulary} {named rest : List String} {es : List Element} {e : Element}
  {name : String}

theorem Named.describes (h : Named e name) : Describes e (builtin.describe e) := by
  cases h with
  | @token c _ =>
      cases hk : Kind.ofCode? c with
      | some k =>
          obtain rfl := Kind.ofCode?_eq_some_iff.1 hk
          rw [describe, hk]
          exact .kind k
      | none =>
          rw [describe, hk]
          exact .unknown (Kind.ofCode?_eq_none_iff.1 hk)
  | @rule i s h =>
      rw [describe, h]
      exact .rule h

theorem isLongestPrefix_append (hnamed : ∀ kind ∈ named, ∃ e, v.Means kind e)
    (hrest : ∀ kind, rest.head? = some kind → ¬∃ e, v.Means kind e) :
    v.IsLongestPrefix (named ++ rest) named := by
  refine ⟨List.prefix_append _ _, hnamed, fun ks hks hmeans => ?_⟩
  rcases List.prefix_or_prefix_of_prefix hks (List.prefix_append named rest) with hle | ⟨ds, rfl⟩
  · exact hle
  · -- what goes beyond the prefix begins with the first kind of the rest
    cases ds with
    | nil => simp
    | cons d ds =>
        obtain ⟨tail, htail⟩ := (List.prefix_append_right_inj named).1 hks
        have hhead : rest.head? = some d := by
          rw [← htail]
          rfl
        exact absurd (hmeans d (by simp)) (hrest d hhead)

end Vocabulary

namespace Table

variable {t : Table} {v : Vocabulary} {kinds named rest : List String} {es : List Element}

/-- The line about a kind: the words for what it means, and its tag. -/
def Answers (t : Table) (kind line : String) : Prop :=
  ∃ e words, Vocabulary.builtin.Means kind e ∧ Vocabulary.Describes e words ∧
    line = words ++ ": " ++ tagOrNone (t.classify e)

theorem Resolves.answers (h : Resolves .builtin named es) :
    List.Forall₂ t.Answers named (es.map (t.elementLine .builtin)) := by
  rw [List.forall₂_map_right_iff]
  refine h.imp fun kind e hkind => ?_
  obtain ⟨name, hname⟩ := Vocabulary.Named.of_resolve hkind
  exact ⟨e, _, Vocabulary.means_of_resolve hkind, hname.describes, rfl⟩

theorem Resolves.exists_means (h : Resolves v named es) :
    ∀ kind ∈ named, ∃ e, v.Means kind e := by
  induction h with
  | nil => simp
  | cons hkind _ ih => exact List.forall_mem_cons.2 ⟨⟨_, Vocabulary.means_of_resolve hkind⟩, ih⟩

/-- The kinds are split where the first stands that means nothing. -/
theorem exists_resolves_append (v : Vocabulary) (kinds : List String) :
    ∃ named es rest, kinds = named ++ rest ∧ Resolves v named es ∧
      ∀ kind, rest.head? = some kind → v.resolve kind = .error (.unknownKind kind) := by
  induction kinds with
  | nil => exact ⟨[], [], [], rfl, .nil, by simp⟩
  | cons kind kinds ih =>
      cases hkind : v.resolve kind with
      | ok e =>
          obtain ⟨named, es, rest, rfl, hes, hrest⟩ := ih
          exact ⟨kind :: named, e :: es, rest, rfl, .cons hkind hes, hrest⟩
      | error err =>
          obtain rfl := Vocabulary.eq_unknownKind_of_resolve hkind
          refine ⟨[], [], kind :: kinds, rfl, .nil, fun first hfirst => ?_⟩
          obtain rfl := Option.some.inj hfirst
          exact hkind

end Table

/-! ## Runs -/

/-- The run prints a line about each of the named kinds and changes no file.  It ends well if they
are all there are, and else with an error about the first of the others, after the log. -/
structure Outcome.Classifies (o : Outcome) (files : Files) (t : Table) (log : String)
    (colored : Bool) (kinds named : List String) : Prop where
  stdout : ∃ lines, List.Forall₂ t.Answers named lines ∧ HasLines lines o.stdout
  exit_eq_zero_iff : o.exit = 0 ↔ named = kinds
  stderr : named = kinds → o.stderr = log
  error : ∀ kind rest, kinds = named ++ kind :: rest →
    o.exit = 1 ∧
      ∃ text, (unknownKindError kind).IsPrinted colored text ∧ o.stderr = log ++ text
  files : o.files = files

namespace Arguments

variable {a b : Arguments} {files : Files} {t : Table} {events : List Event}
  {kinds named rest : List String} {es : List Element} {f : Failure} {kind : String}

theorem run_of_refusesConfig (hcommand : a.command = .classify kinds)
    (h : files.RefusesConfig a.config? f) :
    a.run files = ⟨⟨1, "", "" ++ f.report.printed a.color.isColored⟩, files⟩ := by
  have hplan : a.plan files.read = .fail [] f := by
    rw [plan_classify hcommand, classifyPlan, h.loadTable_eq]
  exact run_of_fail hplan

section

variable (hcommand : a.command = .classify (named ++ rest))
  (h : files.LoadsTable a.config? t events) (hes : Table.Resolves .builtin named es)

include hcommand h hes

theorem run_of_loadsTable : a.run files =
    ⟨⟨(t.classifyAll .builtin rest).2.exit,
      String.join (es.map fun e => t.elementLine .builtin e ++ "\n") ++
        (t.classifyAll .builtin rest).1,
      a.stderr events (t.classifyAll .builtin rest).2⟩, files⟩ := by
  have hplan : a.plan files.read = ⟨events,
      String.join (es.map fun e => t.elementLine .builtin e ++ "\n") ++
        (t.classifyAll .builtin rest).1, none, (t.classifyAll .builtin rest).2⟩ := by
    rw [plan_classify hcommand, classifyPlan, h.loadTable_eq]
    simp only [Table.classifyAll_append hes]
  rw [run_eq, hplan]
  rfl

theorem classifies_run
    (hrest : ∀ kind, rest.head? = some kind →
      Vocabulary.builtin.resolve kind = .error (.unknownKind kind)) :
    (a.run files).Classifies files t (Event.log a.verbosity events) a.color.isColored
      (named ++ rest) named := by
  have hrun := run_of_loadsTable hcommand h hes
  have hlines : ∃ lines, List.Forall₂ t.Answers named lines ∧ HasLines lines
      (String.join (es.map fun e => t.elementLine .builtin e ++ "\n")) :=
    ⟨_, hes.answers, hes.hasLines t⟩
  cases rest with
  | nil =>
      rw [Table.classifyAll, String.append_empty] at hrun
      rw [hrun]
      exact ⟨hlines, by simp [Ending.exit], fun _ => by simp [stderr, Ending.complaint],
        by simp, rfl⟩
  | cons kind rest =>
      rw [Table.classifyAll, hrest kind rfl] at hrun
      simp only [String.append_empty] at hrun
      rw [hrun]
      refine ⟨hlines, by simp [Ending.exit], fun hall => by simp at hall, ?_, rfl⟩
      intro first others heq
      obtain ⟨rfl, -⟩ := List.cons.inj (List.append_cancel_left heq)
      exact ⟨rfl, _, HintedError.isPrinted_printed _ _, rfl⟩

end

end Arguments

namespace Program

variable {default? : Option String} {args : List String} {a : Arguments} {kinds : List String}

/-- Either the configuration is refused, and then nothing is printed whatever the kinds are, or the
run prints a line about each kind of the longest prefix that means something, and ends well if there
are no more.  The kinds behind the first that means nothing can be replaced: the run is the same. -/
theorem run_classify_longestPrefix (h : Arguments.parse default? args = .ok a)
    (hcommand : a.command = .classify kinds) (manual : Manual) (files : Files) :
    ((∃ t events, files.LoadsTable a.config? t events) ∨
        ∃ f, files.RefusesConfig a.config? f) ∧
      (∀ f, files.RefusesConfig a.config? f →
        (run manual default? args files).Aborts files f a.color.isColored "") ∧
      ∀ t events, files.LoadsTable a.config? t events →
        ∃ named, Vocabulary.builtin.IsLongestPrefix kinds named ∧
          (run manual default? args files).Classifies files t (Event.log a.verbosity events)
            a.color.isColored kinds named ∧
          ∀ kind rest, kinds = named ++ kind :: rest → ∀ default?' args' rest',
            Arguments.parse default?' args' =
                .ok { a with command := .classify (named ++ kind :: rest') } →
              run manual default?' args' files = run manual default? args files := by
  rw [run_of_parse h]
  refine ⟨files.loadsTable_or_refusesConfig _, fun f hf => ?_, fun t events ht => ?_⟩
  · rw [Arguments.run_of_refusesConfig hcommand hf]
    exact .of_printed files f _ ""
  · obtain ⟨named, es, rest, rfl, hes, hrest⟩ :=
      Table.exists_resolves_append Vocabulary.builtin kinds
    refine ⟨named, Vocabulary.isLongestPrefix_append hes.exists_means fun kind hkind he => ?_,
      Arguments.classifies_run hcommand ht hes hrest, ?_⟩
    · obtain ⟨e, he⟩ := he
      have hok := he.resolve_eq
      rw [hrest kind hkind] at hok
      cases hok
    · intro kind others heq default?' args' rest' h'
      obtain rfl := List.append_cancel_left heq
      have hother := Arguments.run_of_loadsTable
        (a := { a with command := .classify (named ++ kind :: rest') }) rfl ht hes
      rw [run_of_parse h', hother, Arguments.run_of_loadsTable hcommand ht hes]
      simp only [Table.classifyAll, hrest kind rfl]
      rfl

/-- Arguments with a configuration and kinds, of which the third is no kind. -/
def quirklessArgs : List String :=
  ["--config", "/t/streamql.toml", "classify", "SPACES", "+084", "nope", "'+'"]

/-- The configuration. -/
def quirklessFiles : Files := .ofList
  [("/t/streamql.toml", .text "legacy-quirks = false\n\n[overrides]\nTRUE = \"string-literal\"\n")]

theorem exists_loadsTable_quirklessFiles :
    ∃ t events, quirklessFiles.LoadsTable (some "/t/streamql.toml") t events ∧
      t.get .spaces = none ∧ t.get .litTrue = some .stringLiteral := by
  have hget : (loadTable quirklessFiles.read (some "/t/streamql.toml")).toOption.map
      (fun loaded => (loaded.1.get .spaces, loaded.1.get .litTrue)) =
        some (none, some .stringLiteral) := by decide +kernel
  obtain ⟨t, events, hload, htags⟩ :=
    Files.exists_loadsTable_of_map (g := fun t => (t.get .spaces, t.get .litTrue)) hget
  exact ⟨t, events, hload, Prod.mk.inj htags⟩

/-- The kinds before the third are answered by the table of the configuration, which is named by an
absolute path, and then the run fails. -/
theorem run_classify_longestPrefix_nope :
    Arguments.parse none quirklessArgs =
        .ok ⟨.classify ["SPACES", "+084", "nope", "'+'"], some "/t/streamql.toml", .auto, 0⟩ ∧
      ∃ t events, quirklessFiles.LoadsTable (some "/t/streamql.toml") t events ∧
        t.get .spaces = none ∧ t.get .litTrue = some .stringLiteral ∧
        ∀ manual, ∃ named,
          Vocabulary.builtin.IsLongestPrefix ["SPACES", "+084", "nope", "'+'"] named ∧
            (run manual none quirklessArgs quirklessFiles).Classifies quirklessFiles t
              (Event.log 0 events) false ["SPACES", "+084", "nope", "'+'"] named ∧
            (run manual none quirklessArgs quirklessFiles).exit ≠ 0 := by
  have hparse : Arguments.parse none quirklessArgs =
      .ok ⟨.classify ["SPACES", "+084", "nope", "'+'"], some "/t/streamql.toml", .auto, 0⟩ := rfl
  obtain ⟨t, events, hload, hspaces, htrue⟩ := exists_loadsTable_quirklessFiles
  refine ⟨hparse, t, events, hload, hspaces, htrue, fun manual => ?_⟩
  obtain ⟨-, -, hloads⟩ := run_classify_longestPrefix hparse rfl manual quirklessFiles
  obtain ⟨named, hnamed, hclassifies, -⟩ := hloads t events hload
  refine ⟨named, hnamed, hclassifies, fun hexit => ?_⟩
  obtain ⟨e, he⟩ := hnamed.means "nope" (by rw [hclassifies.exit_eq_zero_iff.1 hexit]; decide)
  have hnope : Vocabulary.builtin.resolve "nope" = .error (.unknownKind "nope") := by
    decide +kernel
  rw [he.resolve_eq] at hnope
  cases hnope

end Program

end TokenHighlight
