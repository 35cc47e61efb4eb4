import TokenHighlight.Proofs.Vocabulary.InSync

/-!
# A report is a complete patch

Making the changes that a report asks for leaves each known name with the code of its kind, and the
symbolic names of all kinds are there (`mem_entries_patch_sync_iff`).  So the result has nothing
left to report, it can be written and read again, and it is the first vocabulary if and only if that
had nothing to report either (`patch_sync_isComplete`).
-/

namespace TokenHighlight

namespace SyncReport

/-- The entry with the code that was expected, if it is mismatched. -/
def correct (r : SyncReport) (e : String × Int) : String × Int :=
  match r.mismatched.find? fun m => m.name == e.1 with
  | some m => (e.1, m.expected)
  | none => e

theorem fst_correct (r : SyncReport) (e : String × Int) : (r.correct e).1 = e.1 := by
  unfold correct
  split <;> rfl

theorem entries_patch (r : SyncReport) (v : Vocabulary) :
    (r.patch v).entries = (v.entries.filter fun e => !r.unknown.contains e).map r.correct ++
      r.missing.map fun k => (k.name, k.code) := rfl

theorem isInSync_iff_eq {r : SyncReport} : r.isInSync ↔ r = ⟨[], [], []⟩ := by
  obtain ⟨unknown, mismatched, missing⟩ := r
  simp [isInSync, and_assoc]

theorem patch_of_isInSync {r : SyncReport} (h : r.isInSync) (v : Vocabulary) : r.patch v = v := by
  obtain rfl := isInSync_iff_eq.1 h
  simp [patch]

end SyncReport

namespace Vocabulary

variable {v : Vocabulary} {e : String × Int} {k : Kind} {s : String} {c : Int}

/-! ## Entries of the patched vocabulary -/

theorem mem_unknown_sync_iff : e ∈ v.sync.unknown ↔ e ∈ v.entries ∧ IsUnknownEntry e := by
  classical
  rw [(isExactDiff_sync v).unknown, List.mem_filter, decide_eq_true_iff]

theorem mem_missing_sync_iff :
    k ∈ v.sync.missing ↔ k ≠ .eof ∧ k.name ∉ v.entries.map Prod.fst := by
  rw [(isExactDiff_sync v).missing, List.mem_filter, decide_eq_true_iff]
  exact and_iff_right k.mem_all

/-- Whether it is mismatched or not, a known entry ends up with the code of its kind. -/
theorem correct_sync (he : e ∈ v.entries) (hk : k.GoesBy e.1) :
    v.sync.correct e = (e.1, k.code) := by
  have hexact := isExactDiff_sync v
  unfold SyncReport.correct
  split
  · rename_i m hm
    have hname : m.name = e.1 := by simpa using List.find?_some hm
    obtain ⟨hgoes, hexpected⟩ := hexact.recorded m (List.mem_of_find?_eq_some hm)
    rw [hexpected, hk.unique (hname ▸ hgoes)]
  · rename_i hnone
    -- a mismatch of the entry would have been found by its name
    have hagrees : ¬IsMismatchedEntry e := by
      intro hmismatched
      have hmem : e ∈ v.sync.mismatched.map Mismatch.entry := by
        classical
        rw [hexact.mismatched, List.mem_filter, decide_eq_true_iff]
        exact ⟨he, hmismatched⟩
      obtain ⟨m, hm, rfl⟩ := List.mem_map.1 hmem
      exact List.find?_eq_none.1 hnone m hm (beq_self_eq_true m.name)
    rw [isMismatchedEntry_iff hk, not_not] at hagrees
    exact Prod.ext rfl hagrees.symm

/-- The patched vocabulary has the known names and the symbolic names of all kinds but the end of
the token stream, with the codes of their kinds. -/
theorem mem_entries_patch_sync_iff :
    (s, c) ∈ (v.sync.patch v).entries ↔ ∃ k : Kind, k.GoesBy s ∧ k.code = c ∧
      (s ∈ v.entries.map Prod.fst ∨ k ≠ .eof ∧ k.name = s) := by
  rw [SyncReport.entries_patch, List.mem_append, List.mem_map, List.mem_map]
  constructor
  · rintro (⟨e, he, heq⟩ | ⟨k, hk, heq⟩)
    · rw [List.mem_filter] at he
      obtain ⟨he, hknown⟩ := he
      have hknown : ¬IsUnknownEntry e := by
        intro hunknown
        simp [mem_unknown_sync_iff, he, hunknown] at hknown
      simp only [IsUnknownEntry, not_forall, not_not] at hknown
      obtain ⟨k, hk⟩ := hknown
      rw [correct_sync he hk] at heq
      obtain ⟨rfl, rfl⟩ := Prod.mk.inj heq
      exact ⟨k, hk, rfl, Or.inl (List.mem_map_of_mem he)⟩
    · obtain ⟨rfl, rfl⟩ := Prod.mk.inj heq
      exact ⟨k, Or.inl rfl, rfl, Or.inr ⟨(mem_missing_sync_iff.1 hk).1, rfl⟩⟩
  · rintro ⟨k, hk, rfl, hnames⟩
    by_cases hs : s ∈ v.entries.map Prod.fst
    · obtain ⟨e, he, rfl⟩ := List.mem_map.1 hs
      have hknown : ¬IsUnknownEntry e := fun hunknown => hunknown k hk
      refine Or.inl ⟨e, List.mem_filter.2 ⟨he, ?_⟩, correct_sync he hk⟩
      simp [mem_unknown_sync_iff, hknown]
    · obtain ⟨heof, rfl⟩ := hnames.resolve_left hs
      exact Or.inr ⟨k, mem_missing_sync_iff.2 ⟨heof, hs⟩, rfl⟩

/-! ## Nothing is left to report -/

theorem isInSync_sync_patch (v : Vocabulary) : (v.sync.patch v).sync.isInSync := by
  refine isInSync_iff.2 ⟨?_, fun k hk => ?_⟩
  · rintro ⟨s, c⟩ he
    obtain ⟨k, hk, hcode, -⟩ := mem_entries_patch_sync_iff.1 he
    exact isAgreeingEntry_iff_builtin.1 ⟨k, hk, hcode⟩
  · have hmem : (k.name, k.code) ∈ (v.sync.patch v).entries :=
      mem_entries_patch_sync_iff.2 ⟨k, Or.inl rfl, rfl, Or.inr ⟨hk, rfl⟩⟩
    exact List.mem_map_of_mem hmem

theorem names_patch (r : SyncReport) (v : Vocabulary) :
    (r.patch v).entries.map Prod.fst =
      (v.entries.filter fun e => !r.unknown.contains e).map Prod.fst ++
        r.missing.map Kind.name := by
  rw [SyncReport.entries_patch, List.map_append, List.map_map, List.map_map]
  congr 1
  exact List.map_congr_left fun e _ => r.fst_correct e

theorem hasDistinctNames_patch (h : v.HasDistinctNames) : (v.sync.patch v).HasDistinctNames := by
  have hkinds : v.sync.missing.Nodup := by
    rw [(isExactDiff_sync v).missing]
    exact Kind.nodup_all.filter _
  unfold HasDistinctNames at h ⊢
  rw [names_patch, List.nodup_append]
  refine ⟨h.sublist (List.filter_sublist.map Prod.fst), hkinds.map fun _ _ => Kind.name_inj, ?_⟩
  rintro s hs t ht rfl
  obtain ⟨k, hk, rfl⟩ := List.mem_map.1 ht
  exact (mem_missing_sync_iff.1 hk).2 ((List.filter_sublist.map Prod.fst).subset hs)

theorem isWritable_of_mem_patch (h : ∀ e ∈ v.entries, IsWritable e)
    (he : e ∈ (v.sync.patch v).entries) : IsWritable e := by
  obtain ⟨s, c⟩ := e
  obtain ⟨k, -, rfl, hs | ⟨-, rfl⟩⟩ := mem_entries_patch_sync_iff.1 he
  · obtain ⟨x, hx, rfl⟩ := List.mem_map.1 hs
    exact ⟨(h x hx).isName, (h x hx).feed_not_mem, k.isCode_code⟩
  · exact ⟨Or.inl k.isSymbolic_name, k.isSymbolic_name.feed_not_mem, k.isCode_code⟩

/-- The changes that the report of a vocabulary asks for give one that is read from its own file and
has nothing to report: exactly the names that are known or were missing, with the codes of their
kinds.  They change nothing if and only if there was nothing to report. -/
theorem patch_sync_isComplete {text : String} (h : ofTokens text = .ok v) :
    ofTokens (v.sync.patch v).toTokens = .ok (v.sync.patch v) ∧
      (v.sync.patch v).sync = ⟨[], [], []⟩ ∧
      (∀ s c, (s, c) ∈ (v.sync.patch v).entries ↔ ∃ k : Kind, k.GoesBy s ∧ k.code = c ∧
        (s ∈ v.entries.map Prod.fst ∨ k ≠ .eof ∧ k.name = s)) ∧
      (v.sync.patch v = v ↔ v.sync = ⟨[], [], []⟩) := by
  have hempty := SyncReport.isInSync_iff_eq.1 (isInSync_sync_patch v)
  refine ⟨?_, hempty, fun s c => mem_entries_patch_sync_iff, fun heq => ?_, fun hsync => ?_⟩
  · have hrules : (v.sync.patch v).rules = [] := (ofTokens_eq_ok_iff.1 h).1
    rw [ofTokens_toTokens (hasDistinctNames_patch (hasDistinctNames_of_ofTokens h))
      fun e he => isWritable_of_mem_patch (IsWritable.of_ofTokens h) he, ← hrules]
  · rwa [heq] at hempty
  · exact SyncReport.patch_of_isInSync (SyncReport.isInSync_iff_eq.2 hsync) v

/-- A wrong code, a literal of a kind without its symbolic name, and a name that is not known; the
end of the token stream keeps its name and gets its code. -/
theorem patch_sync_isComplete_eof :
    ∃ v, ofTokens "EOF=5\n'+'=40\nNOPE=1\n" = .ok v ∧ v.sync ≠ ⟨[], [], []⟩ ∧
      ofTokens (v.sync.patch v).toTokens = .ok (v.sync.patch v) ∧
      (v.sync.patch v).sync = ⟨[], [], []⟩ ∧
      ("EOF", -1) ∈ (v.sync.patch v).entries ∧ ("PLUS", 11) ∈ (v.sync.patch v).entries := by
  have hread : ofTokens "EOF=5\n'+'=40\nNOPE=1\n" =
      .ok ⟨[("EOF", 5), ("'+'", 40), ("NOPE", 1)], []⟩ := by decide +kernel
  obtain ⟨hagain, hempty, hmem, -⟩ := patch_sync_isComplete hread
  refine ⟨_, hread, by decide +kernel, hagain, hempty, ?_, ?_⟩
  · exact (hmem _ _).2 ⟨.eof, Or.inl rfl, rfl, Or.inl (by decide)⟩
  · exact (hmem _ _).2 ⟨.plus, Or.inl rfl, rfl, Or.inr ⟨by decide, rfl⟩⟩

end Vocabulary

end TokenHighlight
