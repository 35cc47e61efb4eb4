import TokenHighlight.Proofs.NameMap
import TokenHighlight.Proofs.Vocabulary.RoundTrip

/-!
# Look-ups and entries

The names of a vocabulary that was read differ, so a look-up by name finds the entry with that name
(`token?_eq_some_iff`).  A look-up by code finds a symbolic entry with that code, and it finds each
of them if no two have the same code (`tokenName?_eq_some_iff`).
-/

namespace TokenHighlight

/-! ## Kinds and their names -/

namespace Kind

/-- A kind goes by its symbolic name and, if it has one, by its quoted spelling. -/
def GoesBy (k : Kind) (s : String) : Prop := k.name = s ∨ k.literal = some s

theorem ofTokenName?_eq_some_iff_goesBy {s : String} {k : Kind} :
    ofTokenName? s = some k ↔ k.GoesBy s := ofTokenName?_eq_some_iff

/-- Quoted spellings are no symbolic names, so at most one kind goes by a name. -/
theorem GoesBy.unique {k l : Kind} {s : String} (hk : k.GoesBy s) (hl : l.GoesBy s) : k = l := by
  have hk' := ofTokenName?_eq_some_iff_goesBy.2 hk
  rw [ofTokenName?_eq_some_iff_goesBy.2 hl] at hk'
  exact (Option.some.inj hk').symm

theorem GoesBy.name_eq {k : Kind} {s : String} (h : k.GoesBy s) (hs : ¬IsQuoted s.toList) :
    k.name = s := by
  rcases h with hname | hliteral
  · exact hname
  · exact absurd (isQuoted_of_literal hliteral).1 hs

theorem goesBy_eof_iff {s : String} : eof.GoesBy s ↔ s = "EOF" := by
  simp [GoesBy, name, literal, eq_comm]

end Kind

namespace Vocabulary

/-! ## Look-ups by name -/

variable {v : Vocabulary} {s : String} {c : Int}

/-- No two entries have the same name. -/
def HasDistinctNames (v : Vocabulary) : Prop := (v.entries.map Prod.fst).Nodup

theorem hasDistinctNames_of_ofTokens {text : String} (h : ofTokens text = .ok v) :
    v.HasDistinctNames := by
  obtain ⟨-, hread⟩ := ofTokens_eq_ok_iff.1 h
  exact (readLines_eq_ok_iff.1 hread).2.1

theorem hasDistinctNames_builtin : builtin.HasDistinctNames := nodup_names_builtin

theorem token?_eq_some_iff (h : v.HasDistinctNames) : v.token? s = some c ↔ (s, c) ∈ v.entries :=
  lookup_eq_some_iff_mem h

theorem token?_eq_none_iff : v.token? s = none ↔ s ∉ v.entries.map Prod.fst :=
  lookup_eq_none_iff_not_mem

theorem token?_builtin_eq_some_iff :
    builtin.token? s = some c ↔
      ∃ k : Kind, k ≠ .eof ∧ k.GoesBy s ∧ k.code = c := by
  rw [token?_eq_some_iff hasDistinctNames_builtin, mem_entries_builtin]
  rfl

/-! ## Look-ups by code -/

theorem mem_symbolic {e : String × Int} :
    e ∈ v.symbolic ↔ e ∈ v.entries ∧ ¬IsQuoted e.1.toList := by
  rw [symbolic, List.mem_filter, ← isLiteralName_iff]
  simp

/-- No two symbolic names have the same code. -/
def HasDistinctCodes (v : Vocabulary) : Prop :=
  ∀ e ∈ v.symbolic, ∀ e' ∈ v.symbolic, e.2 = e'.2 → e = e'

theorem tokenName?_eq_some_iff (h : v.HasDistinctCodes) :
    v.tokenName? c = some s ↔ (s, c) ∈ v.symbolic := by
  rw [tokenName?, Option.map_eq_some_iff]
  constructor
  · rintro ⟨e, hfind, rfl⟩
    have hcode : e.2 = c := by simpa using List.find?_some hfind
    exact hcode ▸ List.mem_of_find?_eq_some hfind
  · intro hmem
    have hsome : (v.symbolic.find? fun e => e.2 == c).isSome := by
      rw [List.find?_isSome]
      exact ⟨_, hmem, by simp⟩
    obtain ⟨e, hfind⟩ := Option.isSome_iff_exists.1 hsome
    have hcode : e.2 = c := by simpa using List.find?_some hfind
    have heq := h e (List.mem_of_find?_eq_some hfind) _ hmem hcode
    exact ⟨e, hfind, congrArg Prod.fst heq⟩

end Vocabulary

end TokenHighlight
