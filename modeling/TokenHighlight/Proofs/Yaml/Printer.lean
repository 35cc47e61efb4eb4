import Mathlib.Data.List.Basic
import Mathlib.Tactic.SplitIfs
import TokenHighlight.Yaml.Printer

/-!
# Values in YAML

How a sequence under a name begins depends on whether it is empty, so a text shows which of its
sequences are (`blockField_list_append_eq_iff`).  A sequence of records whose fields have no items
or fields themselves has a line for each field (`block_records`), and a text without line feeds
stays on its line (`feed_not_mem_scalar`).
-/

namespace TokenHighlight

namespace Yaml

variable {indent : Nat} {name : String} {xs : List Data} {cs ds : List Char}

/-- A value that stands on the line of its name. -/
def IsInline : Data → Prop
  | .list (_ :: _) => False
  | .record (_ :: _) => False
  | _ => True

theorem blockField_of_isInline {x : Data} (h : IsInline x) (indent : Nat) (name : String) :
    blockField indent (name, x) =
      scalar (indent + 2) name.toList ++ ':' :: ' ' :: blockAt indent x := by
  rw [blockField]
  cases x with
  | list xs =>
      cases xs with
      | nil => simp [lead, valueIndent]
      | cons x xs => exact h.elim
  | record fs =>
      cases fs with
      | nil => simp [lead, valueIndent]
      | cons f fs => exact h.elim
  | _ => simp [lead, valueIndent]

/-- The line of a field. -/
def fieldLine (f : String × Data) : List Char :=
  scalar 4 f.1.toList ++ ':' :: ' ' :: blockAt 2 f.2

theorem blockFields_eq {fs : List (String × Data)} (h : ∀ f ∈ fs, IsInline f.2) :
    blockFields 2 fs = fs.flatMap fun f => '\n' :: ' ' :: ' ' :: fieldLine f := by
  induction fs with
  | nil => rfl
  | cons f fs ih =>
      rw [List.forall_mem_cons] at h
      simp [blockFields, newline, blockField_of_isInline h.1, ih h.2, fieldLine]

theorem blockItems_eq (xs : List Data) :
    blockItems 0 xs = xs.flatMap fun x => '\n' :: '-' :: ' ' :: blockAt 2 x := by
  induction xs with
  | nil => rfl
  | cons x xs ih => simp [blockItems, newline, ih]

/-- Line feeds in front of parts and one at the end are line feeds behind the parts. -/
theorem flatMap_feed_append {α : Type} (part : α → List Char) (xs : List α) :
    (xs.flatMap fun x => '\n' :: part x) ++ ['\n'] =
      '\n' :: xs.flatMap fun x => part x ++ ['\n'] := by
  induction xs with
  | nil => rfl
  | cons x xs ih => simp [ih]

/-- The lines of a record in a sequence. -/
def recordLines : List (String × Data) → List (List Char)
  | [] => []
  | f :: fs => ('-' :: ' ' :: fieldLine f) :: fs.map fun f => ' ' :: ' ' :: fieldLine f

theorem blockAt_record_append {fs : List (String × Data)} (hne : fs ≠ [])
    (h : ∀ f ∈ fs, IsInline f.2) :
    '-' :: ' ' :: blockAt 2 (.record fs) ++ ['\n'] = (recordLines fs).flatMap (· ++ ['\n']) := by
  obtain ⟨f, fs, rfl⟩ := List.exists_cons_of_ne_nil hne
  rw [List.forall_mem_cons] at h
  rw [blockAt, blockField_of_isInline h.1, blockFields_eq h.2]
  simpa [recordLines, fieldLine, List.flatMap_map] using
    flatMap_feed_append (fun f => ' ' :: ' ' :: fieldLine f) fs

/-- A sequence of records is written line by line. -/
theorem block_records {records : List (List (String × Data))} (hne : records ≠ [])
    (h : ∀ fs ∈ records, fs ≠ [] ∧ ∀ f ∈ fs, IsInline f.2) :
    (block (.list (records.map .record))).toList =
      (records.flatMap recordLines).flatMap (· ++ ['\n']) := by
  have hrecords : ∀ fs ∈ records, (recordLines fs).flatMap (· ++ ['\n']) =
      '-' :: ' ' :: blockAt 2 (.record fs) ++ ['\n'] :=
    fun fs hfs => (blockAt_record_append (h fs hfs).1 (h fs hfs).2).symm
  rw [List.flatMap_assoc, List.flatMap_congr hrecords]
  obtain ⟨fs, records, rfl⟩ := List.exists_cons_of_ne_nil hne
  rw [block, String.toList_ofList, List.map_cons, blockAt, blockItems_eq, List.flatMap_map]
  simpa using flatMap_feed_append (fun fs => '-' :: ' ' :: blockAt 2 (.record fs)) records

/-! ## Texts on one line -/

theorem feed_not_mem_fixed (width n : Nat) : '\n' ∉ Hex.fixed Hex.upper width n := by
  have hdigit : ∀ d < 16, Hex.upper d ≠ '\n' := by decide
  induction width generalizing n with
  | zero => simp [Hex.fixed]
  | succ width ih =>
      have hlast := hdigit (n % 16) (Nat.mod_lt n (by decide))
      simp [Hex.fixed, ih, hlast.symm]

theorem feed_not_mem_ite {p : Prop} [Decidable p] (hcs : p → '\n' ∉ cs) (hds : '\n' ∉ ds) :
    '\n' ∉ if p then cs else ds := by
  by_cases hp : p
  · rw [if_pos hp]
    exact hcs hp
  · rwa [if_neg hp]

theorem feed_not_mem_escape (c : Char) : '\n' ∉ escape c := by
  have hplain : (isPrintable c && !isBreak c) = true → '\n' ∉ [c] := by
    rintro h hmem
    rw [← List.mem_singleton.1 hmem] at h
    revert h
    decide
  have hcode : ∀ width d, d ≠ '\n' →
      '\n' ∉ '\\' :: d :: Hex.fixed Hex.upper width c.toNat := by
    intro width d hd
    simp [feed_not_mem_fixed, hd.symm]
  unfold escape
  -- the quote and the backslash
  iterate 2 refine feed_not_mem_ite (fun _ => by decide) ?_
  refine feed_not_mem_ite hplain ?_
  -- the escapes of one letter
  iterate 12 refine feed_not_mem_ite (fun _ => by decide) ?_
  refine feed_not_mem_ite (fun _ => hcode 2 'x' (by decide)) ?_
  refine feed_not_mem_ite (fun _ => hcode 4 'u' (by decide)) ?_
  exact hcode 8 'U' (by decide)

theorem feed_not_mem_singleQuoted (h : '\n' ∉ cs) (indent : Nat) (afterBreak : Bool) :
    '\n' ∉ singleQuoted indent afterBreak cs := by
  induction cs generalizing afterBreak with
  | nil => cases afterBreak <;> simp [singleQuoted]
  | cons c cs ih =>
      rw [List.mem_cons, not_or] at h
      rw [singleQuoted]
      split_ifs
      all_goals simp_all

theorem feed_not_mem_scalar (h : '\n' ∉ cs) (indent : Nat) : '\n' ∉ scalar indent cs := by
  rw [scalar]
  split_ifs
  · exact h
  · simp [feed_not_mem_singleQuoted h]
  · simp [feed_not_mem_escape]

end Yaml

end TokenHighlight
