import TokenHighlight.Proofs.Vocabulary.Resolve
import TokenHighlight.Proofs.Vocabulary.Sync

/-!
# The order in which names are resolved

Known kinds come before the vocabulary (`Means`), so they hide its symbolic names.  Whether this
makes a difference can be told from the report about the vocabulary: names are what it makes of them
if and only if all mismatched names are quoted (`IsWellNamed.resolve_agrees_iff`).
-/

namespace TokenHighlight

namespace Vocabulary

variable {v : Vocabulary} {s : String} {e : Element}

theorem mem_mismatched_iff {x : String × Int} :
    x ∈ v.sync.mismatched.map Mismatch.entry ↔ x ∈ v.entries ∧ IsMismatchedEntry x := by
  rw [(isExactDiff_sync v).mismatched]
  simp

section

variable (hv : v.IsWellNamed)

include hv

theorem IsWellNamed.isQuoted_of_agrees (h : ∀ s e, v.element? s = some e → v.resolve s = .ok e)
    {m : Mismatch} (hm : m ∈ v.sync.mismatched) : IsQuoted m.name.toList := by
  by_contra hquoted
  obtain ⟨hmem, k, hk, hcode⟩ := mem_mismatched_iff.1 (List.mem_map_of_mem hm)
  have htoken : v.token? m.name = some m.found := (token?_eq_some_iff hv.distinctNames).2 hmem
  have hresolve := h _ _ (element?_eq_some_iff_lookup.2 (Or.inl ⟨_, htoken, rfl⟩))
  -- the kind hides the entry
  have hhidden : v.resolve m.name = .ok (.ofKind k) :=
    resolve_name (not_isCodeText_of_isName (hv.forms _ hmem)) (hk.name_eq hquoted)
  rw [hhidden] at hresolve
  exact hcode (Element.token.inj (Except.ok.inj hresolve))

theorem IsWellNamed.element?_of_name {k : Kind} (hk : k.name = s)
    (hmismatched : ∀ m ∈ v.sync.mismatched, IsQuoted m.name.toList) (h : v.element? s = some e) :
    e = .ofKind k := by
  subst hk
  rcases element?_eq_some_iff_lookup.1 h with ⟨c, hc, rfl⟩ | ⟨-, i, hi, -⟩
  · have hmem : (k.name, c) ∈ v.entries := (token?_eq_some_iff hv.distinctNames).1 hc
    by_cases hcode : k.code = c
    · rw [← hcode]
      rfl
    · obtain ⟨m, hm, hentry⟩ := List.mem_map.1 (mem_mismatched_iff.2 ⟨hmem, k, Or.inl rfl, hcode⟩)
      have hname : m.name = k.name := congrArg Prod.fst hentry
      have hquoted := hmismatched m hm
      rw [hname] at hquoted
      exact absurd hquoted k.isSymbolic_name.not_isQuoted
  · exact absurd rfl ((hv.rules _ (mem_rules_of_rule? hi)).2 k)

/-- Names are what the vocabulary makes of them unless a known kind with another code hides one. -/
theorem IsWellNamed.resolve_agrees_iff :
    (∀ s e, v.element? s = some e → v.resolve s = .ok e) ↔
      ∀ m ∈ v.sync.mismatched, IsQuoted m.name.toList := by
  constructor
  · exact fun h m hm => hv.isQuoted_of_agrees h hm
  · intro hmismatched s e he
    have hcode := not_isCodeText_of_isName (hv.isName_of_element? he)
    by_cases hkind : ∃ k : Kind, k.name = s
    · obtain ⟨k, hk⟩ := hkind
      rw [resolve_name hcode hk, hv.element?_of_name hk hmismatched he]
    · rw [resolve_eq_element? hcode (not_exists.1 hkind), he]

end

theorem mismatched_sync_builtin : builtin.sync.mismatched = [] := by
  rw [← List.map_eq_nil_iff (f := Mismatch.entry), List.eq_nil_iff_forall_not_mem]
  intro x hx
  obtain ⟨hmem, l, hl, hcode⟩ := mem_mismatched_iff.1 hx
  obtain ⟨k, -, hk, hcode'⟩ := mem_entries_builtin.1 hmem
  exact hcode (hl.unique hk ▸ hcode')

/-- A text is resolved in the order of precedence, and if it means nothing, the error quotes it and
has two hints.  Names that a vocabulary defines are what the vocabulary makes of them, if no code
differs from that of the kind with the name, and integers of more than 32 bits are errors. -/
theorem resolve_follows_precedence (v : Vocabulary) :
    (∀ s e, v.resolve s = .ok e ↔ v.Means s e) ∧
    (∀ s err, v.resolve s = .error err ↔ (¬∃ e, v.Means s e) ∧ err = .unknownKind s ∧
      err.report = ⟨"unknown token kind `" ++ s ++ "`",
        ["token names are upper case, for example `PLUS` or `ID`",
          "run `streamql table` to list all of them"]⟩) ∧
    (v = builtin ∨ (∃ text, ofTokens text = .ok v) →
      (v = builtin ∨ v.sync.mismatched = [] →
        ∀ s e, v.element? s = some e → v.resolve s = .ok e) ∧
      ∀ s n, Decimal.Denotes s.toList n → ¬(-2147483648 ≤ n ∧ n ≤ 2147483647) →
        v.resolve s = .error (.unknownKind s)) := by
  refine ⟨fun s e => resolve_eq_ok_iff, fun s err => ?_, fun hv => ?_⟩
  · rw [resolve_eq_error_iff]
    refine and_congr_right fun _ => ⟨?_, And.left⟩
    rintro rfl
    exact ⟨rfl, rfl⟩
  · have hnamed : v.IsWellNamed := by
      rcases hv with rfl | ⟨text, h⟩
      · exact isWellNamed_builtin
      · exact isWellNamed_of_ofTokens h
    refine ⟨fun hsync => hnamed.resolve_agrees_iff.2 ?_, fun s n hn hrange => ?_⟩
    · have hmismatched : v.sync.mismatched = [] := by
        rcases hsync with rfl | hnone
        · exact mismatched_sync_builtin
        · exact hnone
      simp [hmismatched]
    · cases hresolve : v.resolve s with
      | ok e =>
          obtain ⟨hcode, -⟩ := (hnamed.resolve_eq_ok_iff_of_denotes hn).1 hresolve
          exact absurd (Decimal.isCode_iff.1 hcode) hrange
      | error err => rw [eq_unknownKind_of_resolve hresolve]

/-- Names of no known kinds, one of them quoted, and an integer that is just too large. -/
theorem resolve_follows_precedence_newNames :
    ∃ v, ofTokens "PLUS=11\nNEW=+007\n'%%'=-2" = .ok v ∧ v.sync.mismatched = [] ∧
      v.resolve "PLUS" = .ok (.ofKind .plus) ∧ v.resolve "NEW" = .ok (.token 7) ∧
      v.resolve "'%%'" = .ok (.token (-2)) ∧
      v.resolve "2147483648" = .error (.unknownKind "2147483648") := by
  have hread : ofTokens "PLUS=11\nNEW=+007\n'%%'=-2" =
      .ok ⟨[("PLUS", 11), ("NEW", 7), ("'%%'", -2)], []⟩ := by decide +kernel
  have hsync : (sync ⟨[("PLUS", 11), ("NEW", 7), ("'%%'", -2)], []⟩).mismatched = [] := by
    decide +kernel
  have hdenotes : Decimal.Denotes "2147483648".toList 2147483648 :=
    Decimal.toInt?_eq_some_iff.1 (by decide)
  obtain ⟨hagrees, hfar⟩ := (resolve_follows_precedence _).2.2 (Or.inr ⟨_, hread⟩)
  have hnames := hagrees (Or.inr hsync)
  exact ⟨_, hread, hsync, hnames _ _ rfl, hnames _ _ rfl, hnames _ _ rfl,
    hfar _ _ hdenotes (by decide)⟩

end Vocabulary

end TokenHighlight
