import TokenHighlight.Highlight

/-!
# Which elements have tags

The codes of the kinds are those from one up to the last position and that of the end of the token
stream; zero, the position of the end, is no code (`Kind.exists_code_eq_iff`).  So an element has a
tag if and only if it is a token with the code of a kind that has this tag in the table
(`Table.mem_tagsOf_iff`).
-/

namespace TokenHighlight

namespace Kind

variable {c : Int}

theorem ofCode?_eq_none_iff : ofCode? c = none ↔ ∀ k : Kind, k.code ≠ c := by
  simp only [Option.eq_none_iff_forall_ne_some, ne_eq, ofCode?_eq_some_iff]

theorem exists_index_eq {i : Nat} (h : i < count) : ∃ k : Kind, k.index = i := by
  obtain ⟨k, hk⟩ : ∃ k, all[i]? = some k := ⟨_, List.getElem?_eq_getElem h⟩
  exact ⟨k, index_of_getElem?_all hk⟩

/-- No kind has code zero, although there is one in this position. -/
theorem exists_code_eq_iff : (∃ k : Kind, k.code = c) ↔ c = -1 ∨ 0 < c ∧ c < count := by
  constructor
  · rintro ⟨k, rfl⟩
    by_cases hk : k = eof
    · subst hk
      exact Or.inl code_eof
    · have hpos := index_pos_of_ne_eof hk
      have hlt := k.index_lt_count
      rw [code_of_ne_eof hk]
      omega
  · rintro (rfl | ⟨hpos, hlt⟩)
    · exact ⟨eof, rfl⟩
    · obtain ⟨k, hk⟩ := exists_index_eq (i := c.toNat) (by omega)
      have hne : k ≠ eof := by
        rintro rfl
        have hzero : c.toNat = 0 := hk.symm
        omega
      refine ⟨k, ?_⟩
      rw [code_of_ne_eof hne, hk]
      omega

end Kind

namespace Element

theorem kind?_eq_some_iff {e : Element} {k : Kind} : e.kind? = some k ↔ e = ofKind k := by
  cases e with
  | token c =>
      rw [kind?, Kind.ofCode?_eq_some_iff, ofKind, token.injEq]
      exact eq_comm
  | rule i => simp [kind?, ofKind]
  | unknown => simp [kind?, ofKind]

end Element

namespace Table

variable {t : Table} {e : Element} {tag : Tag}

theorem mem_tagsOf_iff : tag ∈ t.tagsOf e ↔ ∃ k, e = .ofKind k ∧ t.get k = some tag := by
  rw [tagsOf, Option.mem_toList, classify]
  cases hkind : e.kind? with
  | some k =>
      obtain rfl := Element.kind?_eq_some_iff.1 hkind
      constructor
      · exact fun h => ⟨k, rfl, h⟩
      · rintro ⟨l, heq, h⟩
        rwa [Kind.code_inj (Element.token.inj heq)]
  | none =>
      refine iff_of_false (by simp) ?_
      rintro ⟨k, rfl, -⟩
      rw [Element.kind?_ofKind] at hkind
      cases hkind

theorem tagsOf_eq_nil (h : ∀ k, e ≠ .ofKind k) : t.tagsOf e = [] := by
  rw [List.eq_nil_iff_forall_not_mem]
  intro tag htag
  obtain ⟨k, hk, -⟩ := mem_tagsOf_iff.1 htag
  exact h k hk

theorem tagsOf_ofKind (t : Table) (k : Kind) : t.tagsOf (.ofKind k) = (t.get k).toList := by
  rw [tagsOf, classify_ofKind]

/-- An element has at most one tag.  A token has the one that the table gives to the kind with its
code; there is at most one such kind, and it is found.  Nodes of the parse tree, unknown tokens and
tokens whose code no kind has are without tags. -/
theorem tagsOf_exact (t : Table) :
    (∀ e, (t.tagsOf e).length ≤ 1) ∧
    (∀ i, t.tagsOf (.rule i) = []) ∧ t.tagsOf .unknown = [] ∧
    (∀ c, (∀ k : Kind, k.code ≠ c) → Kind.ofCode? c = none ∧ t.tagsOf (.token c) = []) ∧
    (∀ c k, k.code = c → (∀ l : Kind, l.code = c → l = k) ∧ Kind.ofCode? c = some k ∧
      t.tagsOf (.token c) = (t.get k).toList) ∧
    (∀ c, Kind.ofCode? c = none ↔ c = 0 ∨ c < -1 ∨ Kind.count ≤ c) ∧
    ∀ k, t.tagsOf (.ofKind k) = (t.get k).toList := by
  refine ⟨fun e => ?_, fun i => ?_, ?_, fun c hc => ⟨Kind.ofCode?_eq_none_iff.2 hc, ?_⟩, ?_,
    fun c => ?_, t.tagsOf_ofKind⟩
  · rw [tagsOf]
    exact Option.length_toList_le
  · exact tagsOf_eq_nil fun k => by simp [Element.ofKind]
  · exact tagsOf_eq_nil fun k => by simp [Element.ofKind]
  · exact tagsOf_eq_nil fun k hk => hc k (Element.token.inj hk).symm
  · rintro c k rfl
    exact ⟨fun l hl => Kind.code_inj hl, k.ofCode?_code, t.tagsOf_ofKind k⟩
  · have hcodes := Kind.exists_code_eq_iff (c := c)
    rw [Kind.ofCode?_eq_none_iff, ← not_exists, hcodes]
    omega

end Table

end TokenHighlight
