import TokenHighlight.Highlight
import TokenHighlight.Proofs.Vocabulary.Sync

/-!
# Vocabularies in sync

A vocabulary that was read is in sync if and only if its look-ups by name, its look-ups by code and
the classification of what its names stand for are those of the known kinds
(`isInSync_iff_looksUpLikeBuiltin`).  Comparing goes from name to name only; look-ups by code agree
as well because no two kinds share a code.
-/

namespace TokenHighlight

namespace Vocabulary

variable {v : Vocabulary}

/-- Look-ups find what they find in the built-in vocabulary, except that literals may be missing and
that the end of the token stream may have a name. -/
structure LooksUpLikeBuiltin (v : Vocabulary) : Prop where
  symbolic : ∀ s, IsSymbolic s.toList → s ≠ "EOF" → v.token? s = builtin.token? s
  quoted : ∀ s c, IsQuoted s.toList → v.token? s = some c → builtin.token? s = some c
  eof : v.token? "EOF" = none ∨ v.token? "EOF" = some (-1)
  tokenName : ∀ c, c ≠ -1 → v.tokenName? c = builtin.tokenName? c
  distinctCodes : v.HasDistinctCodes
  classified : ∀ s, v.token? s ≠ none → ∃ (k : Kind) (e : Element),
    k.GoesBy s ∧ v.element? s = some e ∧ ∀ t : Table, t.classify e = t.get k

/-- Every entry is one of the built-in vocabulary or names the end of the token stream. -/
def HasBuiltinEntries (v : Vocabulary) : Prop :=
  ∀ e ∈ v.entries, builtin.token? e.1 = some e.2 ∨ e = ("EOF", -1)

/-- Every kind but the end of the token stream has its symbolic name. -/
def NamesAllKinds (v : Vocabulary) : Prop :=
  ∀ k : Kind, k ≠ .eof → k.name ∈ v.entries.map Prod.fst

/-! ## The verdict -/

theorem isAgreeingEntry_iff_builtin {e : String × Int} :
    IsAgreeingEntry e ↔ builtin.token? e.1 = some e.2 ∨ e = ("EOF", -1) := by
  rw [token?_builtin_eq_some_iff]
  constructor
  · rintro ⟨k, hk, hcode⟩
    by_cases heof : k = .eof
    · subst heof
      exact Or.inr (Prod.ext (Kind.goesBy_eof_iff.1 hk) hcode.symm)
    · exact Or.inl ⟨k, heof, hk, hcode⟩
  · rintro (⟨k, -, hk, hcode⟩ | rfl)
    · exact ⟨k, hk, hcode⟩
    · exact ⟨.eof, Kind.goesBy_eof_iff.2 rfl, rfl⟩

open scoped Classical in
theorem isInSync_iff : v.sync.isInSync ↔ v.HasBuiltinEntries ∧ v.NamesAllKinds := by
  have hexact := isExactDiff_sync v
  have hunknown : v.sync.unknown = [] ↔ ∀ e ∈ v.entries, ¬IsUnknownEntry e := by
    simp [hexact.unknown, List.filter_eq_nil_iff]
  have hmismatched : v.sync.mismatched = [] ↔ ∀ e ∈ v.entries, ¬IsMismatchedEntry e := by
    rw [← List.map_eq_nil_iff (f := Mismatch.entry), hexact.mismatched]
    simp [List.filter_eq_nil_iff]
  have hmissing : v.sync.missing = [] ↔ v.NamesAllKinds := by
    rw [hexact.missing, List.filter_eq_nil_iff]
    simp [NamesAllKinds, Kind.mem_all]
  rw [SyncReport.isInSync, Bool.and_eq_true, Bool.and_eq_true, List.isEmpty_iff, List.isEmpty_iff,
    List.isEmpty_iff, hunknown, hmismatched, hmissing, ← forall₂_and]
  refine and_congr_left fun _ => forall₂_congr fun e _ => ?_
  rw [← isAgreeingEntry_iff_builtin]
  have htrichotomy := entry_trichotomy e
  tauto

/-! ## What the verdict guarantees -/

theorem exists_kind_of_mem_symbolic (hentries : v.HasBuiltinEntries) {e : String × Int}
    (h : e ∈ v.symbolic) : ∃ k : Kind, e = (k.name, k.code) := by
  obtain ⟨hmem, hquoted⟩ := mem_symbolic.1 h
  obtain ⟨k, hk, hcode⟩ := isAgreeingEntry_iff_builtin.2 (hentries e hmem)
  exact ⟨k, Prod.ext (hk.name_eq hquoted).symm hcode.symm⟩

theorem hasDistinctCodes (hentries : v.HasBuiltinEntries) : v.HasDistinctCodes := by
  intro e he e' he' hcode
  obtain ⟨k, rfl⟩ := exists_kind_of_mem_symbolic hentries he
  obtain ⟨l, rfl⟩ := exists_kind_of_mem_symbolic hentries he'
  obtain rfl : k = l := Kind.code_inj hcode
  rfl

theorem token?_builtin_eof : builtin.token? "EOF" = none := by
  rw [Option.eq_none_iff_forall_ne_some]
  intro c hc
  obtain ⟨k, hne, hk, -⟩ := token?_builtin_eq_some_iff.1 hc
  exact hne (hk.unique (Kind.goesBy_eof_iff.2 rfl))

theorem hasBuiltinEntries_builtin : builtin.HasBuiltinEntries :=
  fun _ he => Or.inl ((token?_eq_some_iff hasDistinctNames_builtin).2 he)

section Guarantee

variable (hnames : v.HasDistinctNames) (hentries : v.HasBuiltinEntries) {s : String} {c : Int}

include hnames hentries

theorem exists_kind_of_token? (h : v.token? s = some c) : ∃ k : Kind, k.GoesBy s ∧ k.code = c :=
  isAgreeingEntry_iff_builtin.2 (hentries _ ((token?_eq_some_iff hnames).1 h))

theorem token?_builtin_of_token? (hs : s ≠ "EOF") (h : v.token? s = some c) :
    builtin.token? s = some c := by
  rcases hentries _ ((token?_eq_some_iff hnames).1 h) with hbuiltin | heof
  · exact hbuiltin
  · exact absurd (congrArg Prod.fst heof) hs

theorem token?_of_token?_builtin (hkinds : v.NamesAllKinds) (hs : ¬IsQuoted s.toList)
    (h : builtin.token? s = some c) : v.token? s = some c := by
  obtain ⟨k, heof, hk, hcode⟩ := token?_builtin_eq_some_iff.1 h
  obtain rfl := hk.name_eq hs
  -- the kind has an entry, whose code can only be that of the kind
  obtain ⟨⟨name, c'⟩, hmem, hname⟩ := List.mem_map.1 (hkinds k heof)
  obtain rfl : name = k.name := hname
  have htoken : v.token? k.name = some c' := (token?_eq_some_iff hnames).2 hmem
  obtain ⟨l, hl, hcode'⟩ := exists_kind_of_token? hnames hentries htoken
  rw [htoken, ← hcode', ← hcode, hk.unique hl]

theorem token?_eq_builtin (hkinds : v.NamesAllKinds) (hs : ¬IsQuoted s.toList) (heof : s ≠ "EOF") :
    v.token? s = builtin.token? s := by
  apply Option.ext
  intro c
  exact ⟨token?_builtin_of_token? hnames hentries heof,
    token?_of_token?_builtin hnames hentries hkinds hs⟩

theorem token?_eof : v.token? "EOF" = none ∨ v.token? "EOF" = some (-1) := by
  cases h : v.token? "EOF" with
  | none => exact Or.inl rfl
  | some c =>
      obtain ⟨k, hk, hcode⟩ := exists_kind_of_token? hnames hentries h
      obtain rfl : k = .eof := hk.unique (Kind.goesBy_eof_iff.2 rfl)
      rw [← hcode]
      exact Or.inr rfl

theorem mem_symbolic_iff_builtin (hkinds : v.NamesAllKinds) (hc : c ≠ -1) :
    (s, c) ∈ v.symbolic ↔ (s, c) ∈ builtin.symbolic := by
  rw [mem_symbolic, mem_symbolic, ← token?_eq_some_iff hnames,
    ← token?_eq_some_iff hasDistinctNames_builtin]
  refine and_congr_left fun hquoted => ?_
  by_cases heof : s = "EOF"
  · subst heof
    rcases token?_eof hnames hentries with h | h
    · simp [h, token?_builtin_eof]
    · simpa [h, token?_builtin_eof] using hc.symm
  · rw [token?_eq_builtin hnames hentries hkinds hquoted heof]

theorem tokenName?_eq_builtin (hkinds : v.NamesAllKinds) (hc : c ≠ -1) :
    v.tokenName? c = builtin.tokenName? c := by
  apply Option.ext
  intro s
  rw [tokenName?_eq_some_iff (hasDistinctCodes hentries),
    tokenName?_eq_some_iff (hasDistinctCodes hasBuiltinEntries_builtin),
    mem_symbolic_iff_builtin hnames hentries hkinds hc]

theorem exists_element?_classify (h : v.token? s ≠ none) : ∃ (k : Kind) (e : Element),
    k.GoesBy s ∧ v.element? s = some e ∧ ∀ t : Table, t.classify e = t.get k := by
  obtain ⟨c, hc⟩ := Option.ne_none_iff_exists'.1 h
  obtain ⟨k, hk, rfl⟩ := exists_kind_of_token? hnames hentries hc
  refine ⟨k, .ofKind k, hk, ?_, fun t => t.classify_ofKind k⟩
  rw [element?, hc]
  rfl

theorem looksUpLikeBuiltin (hkinds : v.NamesAllKinds) : v.LooksUpLikeBuiltin where
  symbolic _ hs heof := token?_eq_builtin hnames hentries hkinds hs.not_isQuoted heof
  quoted s c hs h := by
    have heof : s ≠ "EOF" := by
      rintro rfl
      exact Kind.eof.isSymbolic_name.not_isQuoted hs
    exact token?_builtin_of_token? hnames hentries heof h
  eof := token?_eof hnames hentries
  tokenName _ hc := tokenName?_eq_builtin hnames hentries hkinds hc
  distinctCodes := hasDistinctCodes hentries
  classified _ h := exists_element?_classify hnames hentries h

end Guarantee

/-! ## What guarantees the verdict -/

namespace LooksUpLikeBuiltin

theorem hasBuiltinEntries (h : v.LooksUpLikeBuiltin) (hnames : v.HasDistinctNames)
    (hforms : ∀ e ∈ v.entries, IsSymbolic e.1.toList ∨ IsQuoted e.1.toList) :
    v.HasBuiltinEntries := by
  rintro ⟨s, c⟩ he
  have htoken : v.token? s = some c := (token?_eq_some_iff hnames).2 he
  rcases hforms _ he with hsymbolic | hquoted
  · by_cases heof : s = "EOF"
    · subst heof
      rcases h.eof with hnone | hcode
      · rw [hnone] at htoken
        cases htoken
      · rw [hcode] at htoken
        cases htoken
        exact Or.inr rfl
    · exact Or.inl (h.symbolic s hsymbolic heof ▸ htoken)
  · exact Or.inl (h.quoted s c hquoted htoken)

theorem namesAllKinds (h : v.LooksUpLikeBuiltin) : v.NamesAllKinds := by
  intro k hk
  have hne : k.name ≠ "EOF" := fun hname => hk (Kind.name_inj (b := .eof) hname)
  have hbuiltin : builtin.token? k.name = some k.code :=
    token?_builtin_eq_some_iff.2 ⟨k, hk, Or.inl rfl, rfl⟩
  rw [← h.symbolic k.name k.isSymbolic_name hne] at hbuiltin
  by_contra hmem
  rw [token?_eq_none_iff.2 hmem] at hbuiltin
  cases hbuiltin

end LooksUpLikeBuiltin

/-- A vocabulary that was read is in sync if and only if it is looked up like the built-in one, and
if and only if its entries are those of the built-in one and name all kinds. -/
theorem isInSync_iff_looksUpLikeBuiltin {text : String} (h : ofTokens text = .ok v) :
    (v.sync.isInSync ↔ v.LooksUpLikeBuiltin) ∧
      (v.sync.isInSync ↔ v.HasBuiltinEntries ∧ v.NamesAllKinds) := by
  have hnames := hasDistinctNames_of_ofTokens h
  refine ⟨?_, isInSync_iff⟩
  rw [isInSync_iff]
  constructor
  · rintro ⟨hentries, hkinds⟩
    exact looksUpLikeBuiltin hnames hentries hkinds
  · intro hlookups
    exact ⟨hlookups.hasBuiltinEntries hnames fun e he => (IsWritable.of_ofTokens h e he).isName,
      hlookups.namesAllKinds⟩

/-- The built-in names, and one for the end of the token stream in front of them. -/
def builtinWithEof : Vocabulary := ⟨("EOF", -1) :: builtin.entries, []⟩

theorem ofTokens_builtinWithEof : ofTokens builtinWithEof.toTokens = .ok builtinWithEof := by
  refine ofTokens_toTokens ?_ fun e he => ?_
  · exact List.nodup_cons.2 ⟨token?_eq_none_iff.1 token?_builtin_eof, nodup_names_builtin⟩
  · rcases List.mem_cons.1 he with rfl | he
    · have hname : IsSymbolic "EOF".toList := Kind.eof.isSymbolic_name
      exact ⟨Or.inl hname, hname.feed_not_mem, by decide⟩
    · exact IsWritable.of_mem_builtin he

theorem isInSync_builtinWithEof : builtinWithEof.sync.isInSync := by
  refine isInSync_iff.2 ⟨fun e he => ?_, fun k hk => ?_⟩
  · rcases List.mem_cons.1 he with rfl | he
    · exact Or.inr rfl
    · exact hasBuiltinEntries_builtin e he
  · have hmem : (k.name, k.code) ∈ builtin.entries :=
      mem_entries_builtin.2 ⟨k, hk, Or.inl rfl, rfl⟩
    exact List.mem_map_of_mem (List.mem_cons_of_mem _ hmem)

/-- A file that names the end of the token stream as well. -/
theorem isInSync_iff_looksUpLikeBuiltin_eof :
    ∃ text v, ofTokens text = .ok v ∧ v.sync.isInSync ∧ v.token? "EOF" = some (-1) ∧
      v.LooksUpLikeBuiltin :=
  ⟨_, builtinWithEof, ofTokens_builtinWithEof, isInSync_builtinWithEof, rfl,
    (isInSync_iff_looksUpLikeBuiltin ofTokens_builtinWithEof).1.1 isInSync_builtinWithEof⟩

end Vocabulary

end TokenHighlight
