import TokenHighlight.Proofs.Vocabulary.Lookup
import TokenHighlight.Vocabulary.Resolve

/-!
# What names stand for

A text is a code if it can be one, then the symbolic name of a known kind, then a token name of the
vocabulary and then the name of a grammar rule (`resolve_eq_ok_iff`).  An integer in decimal has
neither of the two forms of names, so it stands for nothing if it is no code
(`IsWellNamed.resolve_eq_ok_iff_of_denotes`).

In the built-in vocabulary, a kind is named by its symbolic name, its code and its literal
(`Kind.Spelling.resolve_eq`), a grammar rule by its name (`resolve_ruleName`), and nothing else has a
name but codes without a kind (`Named.of_resolve`).
-/

namespace TokenHighlight

open Decimal

variable {cs : List Char} {s : String} {n : Int} {e : Element}

namespace Decimal

/-- An integer begins with a digit or a sign. -/
theorem Denotes.exists_eq_cons (h : Denotes cs n) :
    ∃ c ds, cs = c :: ds ∧ (c.isDigit ∨ c = '+' ∨ c = '-') := by
  obtain ⟨digits, hne, hdigits, hcases⟩ := h
  obtain ⟨d, ds, rfl⟩ := List.exists_cons_of_ne_nil hne
  rcases hcases with ⟨rfl | rfl, -⟩ | ⟨rfl, -⟩
  · exact ⟨d, ds, rfl, Or.inl (hdigits d List.mem_cons_self)⟩
  · exact ⟨'+', d :: ds, rfl, Or.inr (Or.inl rfl)⟩
  · exact ⟨'-', d :: ds, rfl, Or.inr (Or.inr rfl)⟩

theorem not_isAlpha_of_isDigit {c : Char} (h : c.isDigit) : ¬c.isAlpha := by
  unfold Char.isDigit at h
  unfold Char.isAlpha Char.isUpper Char.isLower
  grind

theorem Denotes.not_isSymbolic (h : Denotes cs n) : ¬IsSymbolic cs := by
  obtain ⟨c, ds, rfl, hc⟩ := h.exists_eq_cons
  rintro ⟨d, es, heq, hd, -⟩
  obtain ⟨rfl, rfl⟩ := List.cons.inj heq
  rcases hc with hdigit | rfl | rfl
  · rcases hd with halpha | rfl
    · exact not_isAlpha_of_isDigit hdigit halpha
    · cases hdigit
  · revert hd
    decide
  · revert hd
    decide

theorem Denotes.not_isQuoted (h : Denotes cs n) : ¬IsQuoted cs := by
  obtain ⟨c, ds, rfl, hc⟩ := h.exists_eq_cons
  rintro ⟨-, hhead, -⟩
  obtain rfl : c = '\x27' := Option.some.inj hhead
  revert hc
  decide

end Decimal

theorem Kind.not_goesBy_of_denotes (h : Denotes s.toList n) (k : Kind) : ¬k.GoesBy s := by
  rintro (rfl | hliteral)
  · exact h.not_isSymbolic k.isSymbolic_name
  · exact h.not_isQuoted (Kind.isQuoted_of_literal hliteral).1

/-! ## Precedence -/

namespace Vocabulary

variable {v : Vocabulary}

/-- The text is an integer in decimal that fits into 32 bits. -/
def IsCodeText (s : String) : Prop :=
  ∃ n, Denotes s.toList n ∧ -2147483648 ≤ n ∧ n ≤ 2147483647

/-- What a text means.  It means something in one way only if it does not in those before. -/
inductive Means (v : Vocabulary) (s : String) : Element → Prop
  | code {n : Int} (h : Denotes s.toList n) (hmin : -2147483648 ≤ n) (hmax : n ≤ 2147483647) :
      Means v s (.token n)
  | kind {k : Kind} (hcode : ¬IsCodeText s) (h : k.name = s) : Means v s (.token k.code)
  | token {c : Int} (hcode : ¬IsCodeText s) (hkind : ∀ k : Kind, k.name ≠ s)
      (h : v.token? s = some c) : Means v s (.token c)
  | rule {i : Nat} (hcode : ¬IsCodeText s) (hkind : ∀ k : Kind, k.name ≠ s)
      (htoken : v.token? s = none) (h : v.rule? s = some i) : Means v s (.rule i)

theorem toCode?_eq_none_iff : toCode? s.toList = none ↔ ¬IsCodeText s := by
  simp only [Option.eq_none_iff_forall_ne_some, ne_eq, toCode?_eq_some_iff, IsCodeText, not_exists]

theorem ofName?_eq_none_iff : Kind.ofName? s = none ↔ ∀ k : Kind, k.name ≠ s := by
  simp only [Option.eq_none_iff_forall_ne_some, ne_eq, Kind.ofName?_eq_some_iff]

theorem element?_eq_some_iff_lookup : v.element? s = some e ↔
    (∃ c, v.token? s = some c ∧ e = .token c) ∨
      v.token? s = none ∧ ∃ i, v.rule? s = some i ∧ e = .rule i := by
  unfold element?
  cases v.token? s with
  | none => simp only [Option.map_eq_some_iff, reduceCtorEq, false_and, exists_false, false_or,
      true_and, eq_comm (a := e)]
  | some c => simp [eq_comm]

theorem resolve_name (hcode : ¬IsCodeText s) {k : Kind} (hk : k.name = s) :
    v.resolve s = .ok (.ofKind k) := by
  rw [resolve, toCode?_eq_none_iff.2 hcode, Kind.ofName?_eq_some_iff.2 hk]

theorem resolve_eq_element? (hcode : ¬IsCodeText s) (hkind : ∀ k : Kind, k.name ≠ s) :
    v.resolve s = match v.element? s with
      | some e => .ok e
      | none => .error (.unknownKind s) := by
  have hnone := toCode?_eq_none_iff.2 hcode
  have hname := ofName?_eq_none_iff.2 hkind
  cases helement : v.element? s with
  | none => rw [resolve, hnone, hname, helement]
  | some e => rw [resolve, hnone, hname, helement]

theorem Means.resolve_eq (h : v.Means s e) : v.resolve s = .ok e := by
  cases h with
  | code h hmin hmax => rw [resolve, toCode?_eq_some_iff.2 ⟨h, hmin, hmax⟩]
  | kind hcode h => exact resolve_name hcode h
  | token hcode hkind h =>
      rw [resolve_eq_element? hcode hkind, element?_eq_some_iff_lookup.2 (Or.inl ⟨_, h, rfl⟩)]
  | rule hcode hkind htoken h =>
      rw [resolve_eq_element? hcode hkind,
        element?_eq_some_iff_lookup.2 (Or.inr ⟨htoken, _, h, rfl⟩)]

theorem means_of_resolve (h : v.resolve s = .ok e) : v.Means s e := by
  by_cases hcode : IsCodeText s
  · obtain ⟨n, hn, hmin, hmax⟩ := hcode
    have hmeans : v.Means s (.token n) := .code hn hmin hmax
    rw [hmeans.resolve_eq] at h
    cases h
    exact hmeans
  · by_cases hkind : ∃ k : Kind, k.name = s
    · obtain ⟨k, hk⟩ := hkind
      rw [resolve_name hcode hk] at h
      cases h
      exact .kind hcode hk
    · rw [not_exists] at hkind
      rw [resolve_eq_element? hcode hkind] at h
      split at h
      · rename_i e' he'
        cases h
        rcases element?_eq_some_iff_lookup.1 he' with ⟨c, hc, rfl⟩ | ⟨htoken, i, hi, rfl⟩
        · exact .token hcode hkind hc
        · exact .rule hcode hkind htoken hi
      · cases h

theorem resolve_eq_ok_iff : v.resolve s = .ok e ↔ v.Means s e :=
  ⟨means_of_resolve, Means.resolve_eq⟩

theorem eq_unknownKind_of_resolve {err : ResolveError} (h : v.resolve s = .error err) :
    err = .unknownKind s := by
  unfold resolve at h
  split at h
  · cases h
  · split at h
    · cases h
    · split at h
      · cases h
      · cases h
        rfl

theorem resolve_eq_error_iff {err : ResolveError} :
    v.resolve s = .error err ↔ (¬∃ e, v.Means s e) ∧ err = .unknownKind s := by
  simp only [← resolve_eq_ok_iff]
  cases hresolve : v.resolve s with
  | ok e => simp
  | error err' =>
      obtain rfl := eq_unknownKind_of_resolve hresolve
      simp [eq_comm]

/-! ## Names that are no integers -/

theorem not_isCodeText_of_isName (h : IsSymbolic s.toList ∨ IsQuoted s.toList) :
    ¬IsCodeText s := by
  rintro ⟨n, hn, -⟩
  rcases h with hsymbolic | hquoted
  · exact hn.not_isSymbolic hsymbolic
  · exact hn.not_isQuoted hquoted

theorem isSymbolic_of_mem_grammarRules (h : s ∈ grammarRules) : IsSymbolic s.toList := by
  have hall : ∀ s ∈ grammarRules, isSymbolicName s.toList := by decide +kernel
  exact isSymbolicName_iff.1 (hall s h)

theorem name_ne_of_mem_grammarRules (h : s ∈ grammarRules) (k : Kind) : k.name ≠ s := by
  have hall : ∀ s ∈ grammarRules, Kind.ofName? s = none := by decide +kernel
  exact ofName?_eq_none_iff.1 (hall s h) k

/-- Token names differ and have one of the two forms, and rules have symbolic names that no kinds
have. -/
structure IsWellNamed (v : Vocabulary) : Prop where
  distinctNames : v.HasDistinctNames
  forms : ∀ e ∈ v.entries, IsSymbolic e.1.toList ∨ IsQuoted e.1.toList
  rules : ∀ r ∈ v.rules, IsSymbolic r.toList ∧ ∀ k : Kind, k.name ≠ r

theorem isWellNamed_builtin : builtin.IsWellNamed where
  distinctNames := hasDistinctNames_builtin
  forms _ he := (IsWritable.of_mem_builtin he).isName
  rules _ hr := ⟨isSymbolic_of_mem_grammarRules hr, name_ne_of_mem_grammarRules hr⟩

theorem isWellNamed_of_ofTokens {text : String} (h : ofTokens text = .ok v) : v.IsWellNamed where
  distinctNames := hasDistinctNames_of_ofTokens h
  forms e he := (IsWritable.of_ofTokens h e he).isName
  rules := by
    rw [(ofTokens_eq_ok_iff.1 h).1]
    exact fun _ hr => absurd hr List.not_mem_nil

theorem mem_rules_of_rule? {i : Nat} (h : v.rule? s = some i) : s ∈ v.rules :=
  List.isSome_idxOf?.1 (Option.isSome_of_eq_some h)

section

variable (hv : v.IsWellNamed)

include hv

/-- Every name has one of the two forms, that of a rule too. -/
theorem IsWellNamed.isName_of_element? (h : v.element? s = some e) :
    IsSymbolic s.toList ∨ IsQuoted s.toList := by
  rcases element?_eq_some_iff_lookup.1 h with ⟨c, hc, -⟩ | ⟨-, i, hi, -⟩
  · exact hv.forms _ ((token?_eq_some_iff hv.distinctNames).1 hc)
  · exact Or.inl (hv.rules s (mem_rules_of_rule? hi)).1

theorem IsWellNamed.element?_of_denotes (h : Denotes s.toList n) : v.element? s = none := by
  rw [Option.eq_none_iff_forall_ne_some]
  intro e he
  rcases hv.isName_of_element? he with hsymbolic | hquoted
  · exact h.not_isSymbolic hsymbolic
  · exact h.not_isQuoted hquoted

/-- What an integer names is the token with this code, and nothing if it is no code. -/
theorem IsWellNamed.resolve_eq_ok_iff_of_denotes (h : Denotes s.toList n) :
    v.resolve s = .ok e ↔ isCode n ∧ e = .token n := by
  by_cases hn : isCode n
  · obtain ⟨hmin, hmax⟩ := isCode_iff.1 hn
    rw [(Means.code h hmin hmax).resolve_eq, Except.ok.injEq, and_iff_right hn, eq_comm]
  · have hcode : toCode? s.toList = none := by
      rw [toCode?, toInt?_eq_some_iff.2 h, Option.filter_some, if_neg hn]
    have hkind : ∀ k : Kind, k.name ≠ s := fun k hk => k.not_goesBy_of_denotes h (Or.inl hk)
    rw [resolve_eq_element? (toCode?_eq_none_iff.1 hcode) hkind, hv.element?_of_denotes h]
    simp [hn]

end

end Vocabulary

/-! ## Kinds -/

/-- The ways to write a kind: its symbolic name, its code in decimal and its literal. -/
inductive Kind.Spelling (k : Kind) : String → Prop
  | name : Spelling k k.name
  | code {s : String} (h : Denotes s.toList k.code) : Spelling k s
  | literal {s : String} (h : k.literal = some s) : Spelling k s

theorem Kind.name_ne_of_isQuoted (h : IsQuoted s.toList) (k : Kind) : k.name ≠ s := by
  rintro rfl
  exact k.isSymbolic_name.not_isQuoted h

theorem Vocabulary.token?_builtin_of_literal {k : Kind} (h : k.literal = some s) :
    builtin.token? s = some k.code := by
  have heof : k ≠ .eof := by
    rintro rfl
    cases h
  exact token?_builtin_eq_some_iff.2 ⟨k, heof, Or.inr h, rfl⟩

/-- Whatever its spelling, a kind is found. -/
theorem Kind.Spelling.resolve_eq {k : Kind} (h : k.Spelling s) :
    Vocabulary.builtin.resolve s = .ok (.ofKind k) := by
  cases h with
  | name =>
      exact Vocabulary.resolve_name
        (Vocabulary.not_isCodeText_of_isName (Or.inl k.isSymbolic_name)) rfl
  | code hn => exact Vocabulary.Means.resolve_eq (.code hn k.isCode_code.1 k.isCode_code.2)
  | literal hs =>
      have hquoted := (Kind.isQuoted_of_literal hs).1
      exact Vocabulary.Means.resolve_eq
        (.token (Vocabulary.not_isCodeText_of_isName (Or.inr hquoted))
          (Kind.name_ne_of_isQuoted hquoted) (Vocabulary.token?_builtin_of_literal hs))

/-! ## Grammar rules -/

namespace Vocabulary

variable {i : Nat}

theorem rule?_eq_some_iff {v : Vocabulary} (h : v.rules.Nodup) :
    v.rule? s = some i ↔ v.ruleName? i = some s := by
  rw [rule?, ruleName?, List.idxOf?_eq_some_iff, List.getElem?_eq_some_iff]
  refine exists_congr fun hi => and_iff_left_of_imp ?_
  rintro rfl j hj heq
  exact hj.ne ((h.getElem_inj_iff).1 heq)

theorem nodup_grammarRules : grammarRules.Nodup := by decide +kernel

theorem token?_builtin_of_mem_grammarRules (h : s ∈ grammarRules) : builtin.token? s = none := by
  rw [Option.eq_none_iff_forall_ne_some]
  intro c hc
  obtain ⟨k, -, hk, -⟩ := token?_builtin_eq_some_iff.1 hc
  have hname := hk.name_eq (isSymbolic_of_mem_grammarRules h).not_isQuoted
  exact name_ne_of_mem_grammarRules h k hname

theorem resolve_ruleName (h : builtin.ruleName? i = some s) :
    builtin.resolve s = .ok (.rule i) := by
  have hmem : s ∈ grammarRules := List.mem_of_getElem? h
  have hcode := not_isCodeText_of_isName (Or.inl (isSymbolic_of_mem_grammarRules hmem))
  exact Means.resolve_eq (.rule hcode (name_ne_of_mem_grammarRules hmem)
    (token?_builtin_of_mem_grammarRules hmem) ((rule?_eq_some_iff nodup_grammarRules).2 h))

/-! ## Named elements -/

/-- The elements that have names: tokens with codes, which are names too, and grammar rules. -/
inductive Named : Element → String → Prop
  | token {n : Int} (h : isCode n) : Named (.token n) (String.ofList (ofInt n))
  | rule {i : Nat} {s : String} (h : builtin.ruleName? i = some s) : Named (.rule i) s

theorem Named.resolve_eq (h : Named e s) : builtin.resolve s = .ok e := by
  cases h with
  | token hn =>
      refine (isWellNamed_builtin.resolve_eq_ok_iff_of_denotes ?_).2 ⟨hn, rfl⟩
      rw [String.toList_ofList, ← toInt?_eq_some_iff]
      exact toInt?_ofInt _
  | rule h => exact resolve_ruleName h

/-- What a text names has a name. -/
theorem Named.of_resolve (h : builtin.resolve s = .ok e) : ∃ name, Named e name := by
  cases means_of_resolve h with
  | code _ hmin hmax => exact ⟨_, .token (isCode_iff.2 ⟨hmin, hmax⟩)⟩
  | @kind k _ _ => exact ⟨_, .token (isCode_iff.2 k.isCode_code)⟩
  | token _ _ hc =>
      have hmem := (token?_eq_some_iff hasDistinctNames_builtin).1 hc
      exact ⟨_, .token (isCode_iff.2 (isCode_of_mem_builtin hmem))⟩
  | rule _ _ _ hi => exact ⟨s, .rule ((rule?_eq_some_iff nodup_grammarRules).1 hi)⟩

end Vocabulary

end TokenHighlight
