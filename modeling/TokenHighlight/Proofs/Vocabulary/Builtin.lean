import Mathlib.Data.List.Nodup
import TokenHighlight.Proofs.Vocabulary.Grammar
import TokenHighlight.Vocabulary.Sync

/-!
# The names of the known kinds

The symbolic names and the literals of the known kinds have the two forms of token names, and no
two kinds share a name (`ofTokenName?_eq_some_iff`).
-/

namespace TokenHighlight

open Text

/-! ## The two forms -/

theorem isAlphanum_or_underscore_of_isSymbolic {cs : List Char} (h : IsSymbolic cs) :
    ∀ c ∈ cs, c.isAlphanum ∨ c = '_' := by
  obtain ⟨c, ds, rfl, hc, hds⟩ := h
  rw [List.forall_mem_cons]
  refine ⟨hc.imp_left fun halpha => ?_, hds⟩
  simp [Char.isAlphanum, halpha]

theorem IsSymbolic.not_isQuoted {cs : List Char} (h : IsSymbolic cs) : ¬IsQuoted cs := by
  rintro ⟨-, hhead, -⟩
  have hquote := isAlphanum_or_underscore_of_isSymbolic h '\x27' (List.mem_of_head? hhead)
  revert hquote
  decide

theorem IsSymbolic.not_mem {cs : List Char} {c : Char} (h : IsSymbolic cs)
    (hc : ¬(c.isAlphanum ∨ c = '_')) : c ∉ cs :=
  fun hmem => hc (isAlphanum_or_underscore_of_isSymbolic h c hmem)

theorem IsSymbolic.feed_not_mem {cs : List Char} (h : IsSymbolic cs) : '\n' ∉ cs :=
  h.not_mem (by decide)

namespace Kind

theorem isSymbolic_name (k : Kind) : IsSymbolic k.name.toList := by
  rw [← isSymbolicName_iff]
  cases k <;> decide

theorem isQuoted_of_literal {k : Kind} {s : String} (h : k.literal = some s) :
    IsQuoted s.toList ∧ '\n' ∉ s.toList := by
  rw [← isLiteralName_iff]
  have hall : ∀ s ∈ k.literal, isLiteralName s.toList ∧ '\n' ∉ s.toList := by
    cases k <;> decide
  exact hall s h

/-- The names of a kind are exactly those that stand for it. -/
theorem ofTokenName?_eq_some_iff {s : String} {k : Kind} :
    ofTokenName? s = some k ↔ k.name = s ∨ k.literal = some s := by
  rw [ofTokenName?]
  split_ifs with hliteral
  · rw [isLiteralName_iff] at hliteral
    rw [ofLiteral?_eq_some_iff, iff_or_self]
    rintro rfl
    exact absurd hliteral k.isSymbolic_name.not_isQuoted
  · rw [isLiteralName_iff] at hliteral
    rw [ofName?_eq_some_iff, iff_self_or]
    exact fun h => absurd (isQuoted_of_literal h).1 hliteral

theorem isCode_code (k : Kind) : -2147483648 ≤ k.code ∧ k.code ≤ 2147483647 := by
  have hlt : k.index < 104 := k.index_lt_count
  by_cases heof : k = eof
  · subst heof
    decide
  · rw [code_of_ne_eof heof]
    omega

theorem nodup_all : all.Nodup := by
  rw [List.nodup_iff_getElem?_ne_getElem?]
  intro i j hij hj heq
  have hk : all[j]? = some all[j] := List.getElem?_eq_getElem hj
  have hi := index_of_getElem?_all (heq.trans hk)
  rw [index_of_getElem?_all hk] at hi
  omega

end Kind

/-! ## The built-in vocabulary -/

namespace Vocabulary

theorem mem_entriesOf {k : Kind} {e : String × Int} :
    e ∈ entriesOf k ↔ (k.name = e.1 ∨ k.literal = some e.1) ∧ k.code = e.2 := by
  obtain ⟨s, n⟩ := e
  cases h : k.literal with
  | none => simp [entriesOf, h, eq_comm]
  | some l =>
      simp only [entriesOf, h, Option.map_some, Option.toList_some, List.mem_cons, List.not_mem_nil,
        or_false, Prod.mk.injEq, Option.some.injEq, or_and_right, eq_comm]

theorem mem_entries_builtin {e : String × Int} :
    e ∈ builtin.entries ↔
      ∃ k : Kind, k ≠ .eof ∧ (k.name = e.1 ∨ k.literal = some e.1) ∧ k.code = e.2 := by
  simp only [builtin, List.mem_flatMap, List.mem_filter, Kind.mem_all, true_and, bne_iff_ne,
    mem_entriesOf]

theorem nodup_names_entriesOf (k : Kind) : ((entriesOf k).map Prod.fst).Nodup := by
  cases h : k.literal with
  | none => simp [entriesOf, h]
  | some s =>
      have hne : k.name ≠ s := by
        rintro rfl
        exact k.isSymbolic_name.not_isQuoted (Kind.isQuoted_of_literal h).1
      simpa [entriesOf, h] using hne

theorem nodup_names_builtin : (builtin.entries.map Prod.fst).Nodup := by
  have hname : ∀ {k : Kind} {s : String}, s ∈ (entriesOf k).map Prod.fst →
      Kind.ofTokenName? s = some k := by
    intro k s hs
    obtain ⟨e, he, rfl⟩ := List.mem_map.1 hs
    exact Kind.ofTokenName?_eq_some_iff.2 (mem_entriesOf.1 he).1
  rw [builtin, List.map_flatMap, List.nodup_flatMap]
  refine ⟨fun k _ => nodup_names_entriesOf k, ?_⟩
  refine (Kind.nodup_all.filter _).imp fun {a b} hne s ha hb => hne ?_
  exact Option.some.inj ((hname ha).symm.trans (hname hb))

theorem isCode_of_mem_builtin {e : String × Int} (h : e ∈ builtin.entries) :
    -2147483648 ≤ e.2 ∧ e.2 ≤ 2147483647 := by
  obtain ⟨k, -, -, hcode⟩ := mem_entries_builtin.1 h
  rw [← hcode]
  exact k.isCode_code

end Vocabulary

end TokenHighlight
