import Mathlib.Data.List.Perm.Basic
import TokenHighlight.Proofs.Vocabulary.Lookup

/-!
# The order of lines

Names and codes are all that counts in a tokens file: the order of its lines, blank lines, blanks
around lines and the spelling of codes have no influence on look-ups by name, and on a report only
as far as the order of its lists goes.  Whether a file is accepted depends on what is on its lines
(`ofTokens_eq_ok_iff_contents`), in whatever order (`sync_ignores_lineOrder`).
-/

namespace TokenHighlight

namespace Vocabulary

open Text

variable {v w : Vocabulary} {text text' : String} {s : String}

/-! ## The same entries -/

/-- The vocabularies have the same names with the same codes. -/
def HasSameEntries (v w : Vocabulary) : Prop := ∀ e, e ∈ v.entries ↔ e ∈ w.entries

section SameEntries

variable (hv : v.HasDistinctNames) (hw : w.HasDistinctNames) (h : v.HasSameEntries w)

include hv hw h

theorem HasSameEntries.perm : v.entries.Perm w.entries :=
  (List.perm_ext_iff_of_nodup hv.of_map hw.of_map).2 h

theorem HasSameEntries.token?_eq (s : String) : v.token? s = w.token? s := by
  apply Option.ext
  intro c
  rw [token?_eq_some_iff hv, token?_eq_some_iff hw, h]

theorem HasSameEntries.perm_unknown : v.sync.unknown.Perm w.sync.unknown :=
  (h.perm hv hw).filter _

theorem HasSameEntries.perm_mismatched : v.sync.mismatched.Perm w.sync.mismatched :=
  (h.perm hv hw).filterMap _

theorem HasSameEntries.missing_eq : v.sync.missing = w.sync.missing := by
  simp only [sync, h.token?_eq hv hw]

theorem HasSameEntries.isInSync_eq : v.sync.isInSync = w.sync.isInSync := by
  rw [SyncReport.isInSync, SyncReport.isInSync, (h.perm_unknown hv hw).isEmpty_eq,
    (h.perm_mismatched hv hw).isEmpty_eq, h.missing_eq hv hw]

end SameEntries

/-! ## What is on the lines -/

/-- What is on lines, without the blanks around it and without the blank lines. -/
def contentsOf (lines : List (List Char)) : List (List Char) :=
  (lines.map trim).filter fun core => !core.isEmpty

/-- What is on the lines of a text. -/
def contents (text : String) : List (List Char) := contentsOf (lines text.toList)

theorem contentsOf_cons_of_blank {line : List Char} {lines : List (List Char)}
    (h : IsTrimmed line []) : contentsOf (line :: lines) = contentsOf lines := by
  simp [contentsOf, trim_eq_iff.2 h]

theorem contentsOf_cons_of_trimmed {line core : List Char} {lines : List (List Char)}
    (h : IsTrimmed line core) (hne : core ≠ []) :
    contentsOf (line :: lines) = core :: contentsOf lines := by
  simp [contentsOf, trim_eq_iff.2 h, hne]

theorem holdEntries_iff_contentsOf {lines : List (List Char)} {entries : List (String × Int)} :
    HoldEntries lines entries ↔ List.Forall₂ IsEntry (contentsOf lines) entries := by
  constructor
  · intro h
    induction h with
    | nil => exact .nil
    | blank hline _ ih => rwa [contentsOf_cons_of_blank hline]
    | entry hline hentry _ ih =>
        rw [contentsOf_cons_of_trimmed hline hentry.ne_nil]
        exact .cons hentry ih
  · intro h
    induction lines generalizing entries with
    | nil =>
        cases h
        exact .nil
    | cons line lines ih =>
        have hcore := trim_eq_iff.1 (rfl : trim line = trim line)
        by_cases hblank : trim line = []
        · rw [hblank] at hcore
          rw [contentsOf_cons_of_blank hcore] at h
          exact .blank hcore (ih h)
        · rw [contentsOf_cons_of_trimmed hcore hblank] at h
          cases h with
          | cons hentry hrest => exact .entry hcore hentry (ih hrest)

theorem ofTokens_eq_ok_iff_contents : ofTokens text = .ok v ↔
    v.rules = [] ∧ List.Forall₂ IsEntry (contents text) v.entries ∧ v.HasDistinctNames := by
  rw [ofTokens_eq_ok_iff, readLines_eq_ok_iff, holdEntries_iff_contentsOf]
  exact and_congr_right fun _ => and_congr_right fun _ =>
    ⟨fun hnew => hnew.1, fun hnodup => areNew_of_nodup hnodup⟩

/-! ## Lines in another order -/

/-- The texts have the same lines in some order, apart from blank lines and blanks around lines. -/
def HasSameLines (text text' : String) : Prop := (contents text).Perm (contents text')

theorem hasSameLines_of_perm {ls ls' : List (List Char)} (h : IsLines text.toList ls)
    (h' : IsLines text'.toList ls') (hperm : ls.Perm ls') : HasSameLines text text' := by
  unfold HasSameLines contents
  rw [lines_eq_iff.2 h, lines_eq_iff.2 h']
  exact (hperm.map trim).filter _

/-- The entries of a text are found on the lines of the other one, in the order of those. -/
theorem HasSameLines.exists_ofTokens (h : HasSameLines text text') (hv : ofTokens text = .ok v) :
    ∃ w, ofTokens text' = .ok w ∧ w.entries.Perm v.entries := by
  obtain ⟨-, hentries, hnames⟩ := ofTokens_eq_ok_iff_contents.1 hv
  obtain ⟨entries, hentries', hperm⟩ := List.perm_comp_forall₂ h.symm hentries
  have hnames' : (entries.map Prod.fst).Nodup := (hperm.map Prod.fst).nodup_iff.2 hnames
  exact ⟨⟨entries, []⟩, ofTokens_eq_ok_iff_contents.2 ⟨rfl, hentries', hnames'⟩, hperm⟩

theorem HasSameLines.accepts_iff (h : HasSameLines text text') :
    (∃ v, ofTokens text = .ok v) ↔ ∃ w, ofTokens text' = .ok w := by
  constructor
  · rintro ⟨v, hv⟩
    obtain ⟨w, hw, -⟩ := h.exists_ofTokens hv
    exact ⟨w, hw⟩
  · rintro ⟨w, hw⟩
    obtain ⟨v, hv, -⟩ := HasSameLines.exists_ofTokens h.symm hw
    exact ⟨v, hv⟩

theorem HasSameLines.hasSameEntries (h : HasSameLines text text') (hv : ofTokens text = .ok v)
    (hw : ofTokens text' = .ok w) : v.HasSameEntries w := by
  obtain ⟨w', hw', hperm⟩ := h.exists_ofTokens hv
  obtain rfl : w' = w := Except.ok.inj (hw'.symm.trans hw)
  exact fun e => hperm.symm.mem_iff

/-- Two files with the same names and codes are looked up alike, are in sync or not alike, miss the
same kinds and have the same unknown and mismatched entries, if not in the same order.  Files with
the same lines in another order are accepted or rejected alike, and so are files that differ in
blank lines and blanks around lines as well; what is read from them has the same names and codes. -/
theorem sync_ignores_lineOrder :
    (∀ text text' v w, ofTokens text = .ok v → ofTokens text' = .ok w → v.HasSameEntries w →
      (∀ s, v.token? s = w.token? s) ∧ v.sync.isInSync = w.sync.isInSync ∧
        v.sync.missing = w.sync.missing ∧ v.sync.unknown.Perm w.sync.unknown ∧
        v.sync.mismatched.Perm w.sync.mismatched) ∧
    (∀ (text text' : String) (ls ls' : List (List Char)), IsLines text.toList ls →
      IsLines text'.toList ls' → ls.Perm ls' →
        ((∃ v, ofTokens text = .ok v) ↔ ∃ w, ofTokens text' = .ok w)) ∧
    ∀ text text', HasSameLines text text' →
      ((∃ v, ofTokens text = .ok v) ↔ ∃ w, ofTokens text' = .ok w) ∧
        ∀ v w, ofTokens text = .ok v → ofTokens text' = .ok w → v.HasSameEntries w := by
  refine ⟨fun text text' v w hv hw h => ?_, fun text text' ls ls' hls hls' hperm => ?_,
    fun text text' h => ⟨h.accepts_iff, fun v w => h.hasSameEntries⟩⟩
  · have hnames := hasDistinctNames_of_ofTokens hv
    have hnames' := hasDistinctNames_of_ofTokens hw
    exact ⟨h.token?_eq hnames hnames', h.isInSync_eq hnames hnames', h.missing_eq hnames hnames',
      h.perm_unknown hnames hnames', h.perm_mismatched hnames hnames'⟩
  · exact (hasSameLines_of_perm hls hls' hperm).accepts_iff

/-- A file, the same lines in another order and with other line ends, and the same entries with
blanks, signs and zeros. -/
theorem sync_ignores_lineOrder_spellings :
    ∃ u v w, ofTokens "NOPE=1\nCOL=2\n'%%'=3\n" = .ok u ∧
      ofTokens "COL=2\r\n'%%'=3\r\nNOPE=1" = .ok v ∧
      ofTokens "\t'%%'=3 \n\nCOL= +02\nNOPE=001" = .ok w ∧
      u.HasSameEntries v ∧ u.sync.unknown ≠ w.sync.unknown ∧
      u.sync.unknown.Perm w.sync.unknown := by
  have hu : ofTokens "NOPE=1\nCOL=2\n'%%'=3\n" =
      .ok ⟨[("NOPE", 1), ("COL", 2), ("'%%'", 3)], []⟩ := by decide +kernel
  have hw : ofTokens "\t'%%'=3 \n\nCOL= +02\nNOPE=001" =
      .ok ⟨[("'%%'", 3), ("COL", 2), ("NOPE", 1)], []⟩ := by decide +kernel
  obtain ⟨hreport, hlines, hsame⟩ := sync_ignores_lineOrder
  have hls : IsLines "NOPE=1\nCOL=2\n'%%'=3\n".toList
      ["NOPE=1".toList, "COL=2".toList, "'%%'=3".toList] := lines_eq_iff.1 (by decide +kernel)
  have hls' : IsLines "COL=2\r\n'%%'=3\r\nNOPE=1".toList
      ["COL=2".toList, "'%%'=3".toList, "NOPE=1".toList] := lines_eq_iff.1 (by decide +kernel)
  have hperm : ["NOPE=1".toList, "COL=2".toList, "'%%'=3".toList].Perm
      ["COL=2".toList, "'%%'=3".toList, "NOPE=1".toList] := by decide +kernel
  obtain ⟨v, hv⟩ := (hlines _ _ _ _ hls hls' hperm).1 ⟨_, hu⟩
  have hentries : HasSameEntries ⟨[("NOPE", 1), ("COL", 2), ("'%%'", 3)], []⟩
      ⟨[("'%%'", 3), ("COL", 2), ("NOPE", 1)], []⟩ := fun e => by
    show e ∈ _ ↔ e ∈ [("NOPE", 1), ("COL", 2), ("'%%'", 3)].reverse
    exact List.mem_reverse.symm
  exact ⟨_, v, _, hu, hv, hw, (hsame _ _ (hasSameLines_of_perm hls hls' hperm)).2 _ _ hu hv,
    by decide +kernel, (hreport _ _ _ _ hu hw hentries).2.2.2.1⟩

end Vocabulary

end TokenHighlight
