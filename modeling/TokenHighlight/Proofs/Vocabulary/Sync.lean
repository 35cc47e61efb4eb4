import TokenHighlight.Proofs.Vocabulary.Lookup

/-!
# The report is an exact difference

Every entry of a vocabulary is unknown, or has another code than the kind that goes by its name, or
agrees with that kind.  `SyncReport.IsExactDiff` says which entries a report has to list under which
heading, and which kinds it has to call missing; the report of a vocabulary is the only one that
does (`eq_sync_iff_isExactDiff`).
-/

namespace TokenHighlight

/-- What a mismatch says about the vocabulary. -/
def Mismatch.entry (m : Mismatch) : String × Int := (m.name, m.found)

/-! ## Three classes of entries -/

/-- No kind goes by the name of the entry. -/
def IsUnknownEntry (e : String × Int) : Prop := ∀ k : Kind, ¬k.GoesBy e.1

/-- A kind with another code goes by the name of the entry. -/
def IsMismatchedEntry (e : String × Int) : Prop := ∃ k : Kind, k.GoesBy e.1 ∧ k.code ≠ e.2

/-- A kind with the same code goes by the name of the entry. -/
def IsAgreeingEntry (e : String × Int) : Prop := ∃ k : Kind, k.GoesBy e.1 ∧ k.code = e.2

theorem isUnknownEntry_iff {e : String × Int} :
    IsUnknownEntry e ↔ Kind.ofTokenName? e.1 = none := by
  rw [Option.eq_none_iff_forall_ne_some]
  exact forall_congr' fun k => not_congr Kind.ofTokenName?_eq_some_iff_goesBy.symm

theorem isMismatchedEntry_iff {e : String × Int} {k : Kind} (hk : k.GoesBy e.1) :
    IsMismatchedEntry e ↔ k.code ≠ e.2 := by
  constructor
  · rintro ⟨l, hl, hcode⟩
    rwa [hk.unique hl]
  · exact fun hcode => ⟨k, hk, hcode⟩

theorem isAgreeingEntry_iff {e : String × Int} {k : Kind} (hk : k.GoesBy e.1) :
    IsAgreeingEntry e ↔ k.code = e.2 := by
  constructor
  · rintro ⟨l, hl, hcode⟩
    rwa [hk.unique hl]
  · exact fun hcode => ⟨k, hk, hcode⟩

/-- The classes are exhaustive, and no entry belongs to two of them. -/
theorem entry_trichotomy (e : String × Int) :
    (IsAgreeingEntry e ∧ ¬IsUnknownEntry e ∧ ¬IsMismatchedEntry e) ∨
      (¬IsAgreeingEntry e ∧ IsUnknownEntry e ∧ ¬IsMismatchedEntry e) ∨
        (¬IsAgreeingEntry e ∧ ¬IsUnknownEntry e ∧ IsMismatchedEntry e) := by
  by_cases hunknown : IsUnknownEntry e
  · refine Or.inr (Or.inl ⟨?_, hunknown, ?_⟩)
    · rintro ⟨k, hk, -⟩
      exact hunknown k hk
    · rintro ⟨k, hk, -⟩
      exact hunknown k hk
  · have hknown := hunknown
    simp only [IsUnknownEntry, not_forall, not_not] at hknown
    obtain ⟨k, hk⟩ := hknown
    rw [isAgreeingEntry_iff hk, isMismatchedEntry_iff hk]
    by_cases hcode : k.code = e.2
    · exact Or.inl ⟨hcode, hunknown, fun hne => hne hcode⟩
    · exact Or.inr (Or.inr ⟨hcode, hunknown, hcode⟩)

/-! ## Exact reports -/

open scoped Classical in
/-- A report lists the unknown entries, the mismatched entries with their kinds, both in the order
of the vocabulary, and, in the order of the kinds, those without a symbolic name there. -/
structure SyncReport.IsExactDiff (r : SyncReport) (v : Vocabulary) : Prop where
  unknown : r.unknown = v.entries.filter IsUnknownEntry
  mismatched : r.mismatched.map Mismatch.entry = v.entries.filter IsMismatchedEntry
  recorded : ∀ m ∈ r.mismatched, m.kind.GoesBy m.name ∧ m.expected = m.kind.code
  missing : r.missing = Kind.all.filter fun k => k ≠ .eof ∧ k.name ∉ v.entries.map Prod.fst

namespace SyncReport

theorem mismatch?_eq_some_iff {e : String × Int} {m : Mismatch} :
    mismatch? e = some m ↔
      m.kind.GoesBy m.name ∧ m.expected = m.kind.code ∧ m.expected ≠ m.found ∧ m.entry = e := by
  obtain ⟨name, kind, expected, found⟩ := m
  obtain ⟨s, c⟩ := e
  unfold mismatch?
  cases hs : Kind.ofTokenName? s with
  | none =>
      simp only [reduceCtorEq, false_iff]
      rintro ⟨hk, -, -, heq⟩
      obtain ⟨rfl, -⟩ := Prod.mk.inj heq
      rw [Kind.ofTokenName?_eq_some_iff_goesBy.2 hk] at hs
      cases hs
  | some k =>
      have hk := Kind.ofTokenName?_eq_some_iff_goesBy.1 hs
      constructor
      · intro h
        by_cases hcode : k.code = c
        · simp [hcode] at h
        · simp only [if_neg hcode, Option.some.injEq, Mismatch.mk.injEq] at h
          obtain ⟨rfl, rfl, rfl, rfl⟩ := h
          exact ⟨hk, rfl, hcode, rfl⟩
      · rintro ⟨hkind, hexpected, hne, heq⟩
        obtain ⟨rfl, rfl⟩ := Prod.mk.inj heq
        obtain rfl := hk.unique hkind
        dsimp only at hexpected hne ⊢
        rw [if_neg (hexpected ▸ hne), hexpected]

/-- What is recorded about a mismatched entry is determined by the entry. -/
theorem mismatch_ext {m n : Mismatch} (hm : m.kind.GoesBy m.name ∧ m.expected = m.kind.code)
    (hn : n.kind.GoesBy n.name ∧ n.expected = n.kind.code) (h : m.entry = n.entry) : m = n := by
  obtain ⟨hname, hfound⟩ := Prod.mk.inj h
  have hkind : m.kind = n.kind := hm.1.unique (hname ▸ hn.1)
  have hexpected : m.expected = n.expected := by rw [hm.2, hn.2, hkind]
  cases m
  cases n
  simp_all

theorem eq_of_map_entry_eq {ms ns : List Mismatch}
    (hms : ∀ m ∈ ms, m.kind.GoesBy m.name ∧ m.expected = m.kind.code)
    (hns : ∀ n ∈ ns, n.kind.GoesBy n.name ∧ n.expected = n.kind.code)
    (h : ms.map Mismatch.entry = ns.map Mismatch.entry) : ms = ns := by
  induction ms generalizing ns with
  | nil => exact (List.map_eq_nil_iff.1 h.symm).symm
  | cons m ms ih =>
      obtain ⟨n, ns, rfl, hentry, hrest⟩ := List.map_eq_cons_iff.1 h.symm
      rw [List.forall_mem_cons] at hms hns
      rw [mismatch_ext hms.1 hns.1 hentry.symm, ih hms.2 hns.2 hrest.symm]

theorem IsExactDiff.unique {r s : SyncReport} {v : Vocabulary} (hr : r.IsExactDiff v)
    (hs : s.IsExactDiff v) : r = s := by
  have hunknown : r.unknown = s.unknown := hr.unknown.trans hs.unknown.symm
  have hmissing : r.missing = s.missing := hr.missing.trans hs.missing.symm
  have hmismatched : r.mismatched = s.mismatched :=
    eq_of_map_entry_eq hr.recorded hs.recorded (hr.mismatched.trans hs.mismatched.symm)
  cases r
  cases s
  simp_all

end SyncReport

namespace Vocabulary

open scoped Classical in
theorem map_entry_filterMap_mismatch? (es : List (String × Int)) :
    (es.filterMap SyncReport.mismatch?).map Mismatch.entry = es.filter IsMismatchedEntry := by
  induction es with
  | nil => rfl
  | cons e es ih =>
      by_cases h : IsMismatchedEntry e
      · obtain ⟨k, hk, hcode⟩ := h
        have hsome : SyncReport.mismatch? e = some ⟨e.1, k, k.code, e.2⟩ :=
          SyncReport.mismatch?_eq_some_iff.2 ⟨hk, rfl, hcode, rfl⟩
        rw [List.filterMap_cons_some hsome, List.map_cons, ih,
          List.filter_cons_of_pos (by simpa using ⟨k, hk, hcode⟩)]
        rfl
      · have hnone : SyncReport.mismatch? e = none := by
          rw [Option.eq_none_iff_forall_ne_some]
          intro m hm
          obtain ⟨hk, hexpected, hne, rfl⟩ := SyncReport.mismatch?_eq_some_iff.1 hm
          exact h ⟨m.kind, hk, hexpected ▸ hne⟩
        rw [List.filterMap_cons_none hnone, ih, List.filter_cons_of_neg (by simpa using h)]

open scoped Classical in
theorem isExactDiff_sync (v : Vocabulary) : v.sync.IsExactDiff v where
  unknown := by
    refine List.filter_congr fun e _ => ?_
    rw [Bool.eq_iff_iff, Option.isNone_iff_eq_none, ← isUnknownEntry_iff, decide_eq_true_iff]
  mismatched := map_entry_filterMap_mismatch? v.entries
  recorded := by
    intro m hm
    obtain ⟨e, -, he⟩ := List.mem_filterMap.1 hm
    obtain ⟨hk, hexpected, -⟩ := SyncReport.mismatch?_eq_some_iff.1 he
    exact ⟨hk, hexpected⟩
  missing := by
    refine List.filter_congr fun k _ => ?_
    rw [Bool.eq_iff_iff, Bool.and_eq_true, bne_iff_ne, Option.isNone_iff_eq_none,
      token?_eq_none_iff, decide_eq_true_iff]

/-- A report is the one that comparing gives if and only if it is an exact difference, and every
entry is listed as unknown, or listed as mismatched, or agrees with its kind, and no two of these. -/
theorem eq_sync_iff_isExactDiff (v : Vocabulary) :
    (∀ r : SyncReport, r = v.sync ↔ r.IsExactDiff v) ∧
    ∀ e ∈ v.entries,
      (IsAgreeingEntry e ∧ e ∉ v.sync.unknown ∧ e ∉ v.sync.mismatched.map Mismatch.entry) ∨
      (¬IsAgreeingEntry e ∧ e ∈ v.sync.unknown ∧ e ∉ v.sync.mismatched.map Mismatch.entry) ∨
      (¬IsAgreeingEntry e ∧ e ∉ v.sync.unknown ∧ e ∈ v.sync.mismatched.map Mismatch.entry) := by
  have hexact := isExactDiff_sync v
  refine ⟨fun r => ⟨?_, fun hr => hr.unique hexact⟩, fun e he => ?_⟩
  · rintro rfl
    exact hexact
  · have hunknown : e ∈ v.sync.unknown ↔ IsUnknownEntry e := by
      rw [hexact.unknown]
      simp [he]
    have hmismatched : e ∈ v.sync.mismatched.map Mismatch.entry ↔ IsMismatchedEntry e := by
      rw [hexact.mismatched]
      simp [he]
    rw [hunknown, hmismatched]
    exact entry_trichotomy e

/-- A name with the code of another kind, among names that agree and a spelling of no kind. -/
theorem eq_sync_iff_isExactDiff_wrong_code :
    ∃ v, ofTokens "COL=1\nSCOL=7\n'%%'=-2\n'+'=+011" = .ok v ∧ ("SCOL", 7) ∈ v.entries ∧
      ¬IsAgreeingEntry ("SCOL", 7) ∧ ("SCOL", 7) ∉ v.sync.unknown ∧
      ("SCOL", 7) ∈ v.sync.mismatched.map Mismatch.entry := by
  have hread : ofTokens "COL=1\nSCOL=7\n'%%'=-2\n'+'=+011" =
      .ok ⟨[("COL", 1), ("SCOL", 7), ("'%%'", -2), ("'+'", 11)], []⟩ := by decide +kernel
  refine ⟨_, hread, by decide, ?_⟩
  have hclass := (eq_sync_iff_isExactDiff
    ⟨[("COL", 1), ("SCOL", 7), ("'%%'", -2), ("'+'", 11)], []⟩).2 ("SCOL", 7) (by decide)
  rcases hclass with h | h | h
  · exact absurd h.2.2 (by decide +kernel)
  · exact absurd h.2.2 (by decide +kernel)
  · exact h

end Vocabulary

end TokenHighlight
