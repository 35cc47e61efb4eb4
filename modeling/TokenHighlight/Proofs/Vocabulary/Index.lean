import TokenHighlight.Proofs.Vocabulary.Resolve
import TokenHighlight.Vocabulary.Index

/-!
# The index and the entries

`push` adds an entry and a position separately, and would lose a position if a name came twice.  As
long as names are new the positions are those of the entries (`Agrees.push`), and so they are after
all steps that read a file or list the known kinds (`Agrees.foldl_push`).  The vocabularies that are
built up in this way are those of the searching reader (`map_toVocabulary_ofTokens`), and every
look-up answers by their entries and rules (`answersByEntries`).
-/

namespace TokenHighlight

/-! ## Look-ups by code -/

namespace Vocabulary

variable {v : Vocabulary} {s : String} {c : Int}

theorem tokenName?_eq_find? (v : Vocabulary) (c : Int) : v.tokenName? c =
    (v.entries.find? fun e => !isLiteralName e.1.toList && e.2 == c).map Prod.fst := by
  rw [tokenName?, symbolic, List.find?_filter]
  simp only [Bool.decide_and, Bool.decide_eq_true]

theorem tokenName?_eq_none_iff :
    v.tokenName? c = none ↔ ∀ e ∈ v.entries, ¬IsQuoted e.1.toList → e.2 ≠ c := by
  simp [tokenName?_eq_find?, ← isLiteralName_iff]

/-- Codes may be shared; of the symbolic names with a code the first one is found. -/
theorem tokenName?_eq_some_iff_first : v.tokenName? c = some s ↔
    ∃ before after, v.entries = before ++ (s, c) :: after ∧ ¬IsQuoted s.toList ∧
      ∀ e ∈ before, ¬IsQuoted e.1.toList → e.2 ≠ c := by
  simp only [tokenName?_eq_find?, Option.map_eq_some_iff, List.find?_eq_some_iff_append,
    ← isLiteralName_iff]
  constructor
  · rintro ⟨⟨t, d⟩, ⟨hfound, before, after, hentries, hbefore⟩, rfl⟩
    simp only [Bool.and_eq_true, Bool.not_eq_true', beq_iff_eq] at hfound
    obtain ⟨hname, rfl⟩ := hfound
    refine ⟨before, after, hentries, by simp [hname], fun e he hquoted hcode => ?_⟩
    simpa [hquoted, hcode] using hbefore e he
  · rintro ⟨before, after, hentries, hname, hbefore⟩
    refine ⟨(s, c), ⟨by simp [hname], before, after, hentries, fun e he => ?_⟩, rfl⟩
    have hother := hbefore e he
    simp only [Bool.not_eq_true', Bool.and_eq_false_iff, Bool.not_eq_false', beq_eq_false_iff_ne]
    tauto

theorem element?_eq_some_iff (hnames : v.HasDistinctNames) (hrules : v.rules.Nodup) {a : Element} :
    v.element? s = some a ↔ (∃ c, (s, c) ∈ v.entries ∧ a = .token c) ∨
      s ∉ v.entries.map Prod.fst ∧ ∃ i, v.ruleName? i = some s ∧ a = .rule i := by
  rw [element?_eq_some_iff_lookup]
  simp only [token?_eq_some_iff hnames, token?_eq_none_iff, rule?_eq_some_iff hrules]

end Vocabulary

namespace IndexedVocabulary

open Vocabulary

variable {x y : IndexedVocabulary} {e : String × Int} {es : List (String × Int)} {s : String}
  {c : Int} {seen : List String}

/-! ## One more name -/

/-- The names with positions are the names of the entries, at these positions. -/
def Agrees (x : IndexedVocabulary) : Prop :=
  ∀ (s : String) (i : Nat), x.positions.get? s = some i ↔ ∃ c, x.entries[i]? = some (s, c)

theorem agrees_empty : empty.Agrees := by
  intro s i
  simp [empty]

theorem contains_push (x : IndexedVocabulary) (e : String × Int) (s : String) :
    (x.push e).contains s = (s == e.1 || x.contains s) := by
  simp only [contains, push, NameMap.get?_insert]
  by_cases hs : s = e.1 <;> simp [hs]

/-- A new name gets the position behind all others, and no other name moves. -/
theorem Agrees.push (h : x.Agrees) (hnew : x.contains e.1 = false) : (x.push e).Agrees := by
  have hfresh : ∀ (i : Nat) c, x.entries[i]? ≠ some (e.1, c) := by
    intro i c hentry
    simp [contains, (h e.1 i).2 ⟨c, hentry⟩] at hnew
  intro s i
  simp only [IndexedVocabulary.push, NameMap.get?_insert]
  by_cases hs : s = e.1
  · subst hs
    rw [if_pos rfl, Option.some.injEq]
    constructor
    · rintro rfl
      exact ⟨e.2, List.getElem?_concat_length⟩
    · rintro ⟨c, hc⟩
      rcases Nat.lt_trichotomy i x.entries.length with hlt | rfl | hgt
      · rw [List.getElem?_append_left hlt] at hc
        exact absurd hc (hfresh i c)
      · rfl
      · rw [List.getElem?_eq_none (by simpa using Nat.succ_le_of_lt hgt)] at hc
        cases hc
  · rw [if_neg hs, h s i]
    refine exists_congr fun c => ?_
    rcases Nat.lt_trichotomy i x.entries.length with hlt | rfl | hgt
    · rw [List.getElem?_append_left hlt]
    · have hne : e ≠ (s, c) := fun heq => hs (heq ▸ rfl)
      simp [hne]
    · rw [List.getElem?_eq_none hgt.le,
        List.getElem?_eq_none (by simpa using Nat.succ_le_of_lt hgt)]

/-! ## Many names -/

theorem entries_foldl_push (x : IndexedVocabulary) (es : List (String × Int)) :
    (es.foldl push x).entries = x.entries ++ es := by
  induction es generalizing x with
  | nil => simp
  | cons e es ih =>
      rw [List.foldl_cons, ih]
      simp [push]

theorem rules_foldl_push (x : IndexedVocabulary) (es : List (String × Int)) :
    (es.foldl push x).rules = x.rules := by
  induction es generalizing x with
  | nil => rfl
  | cons e es ih => rw [List.foldl_cons, ih, push]

theorem Agrees.foldl_push (h : x.Agrees) (hseen : ∀ s, x.contains s = seen.contains s)
    (hnew : AreNew seen es) : (es.foldl IndexedVocabulary.push x).Agrees := by
  induction es generalizing x seen with
  | nil => exact h
  | cons e es ih =>
      obtain ⟨hfirst, hrest⟩ := areNew_cons_iff.1 hnew
      rw [List.foldl_cons]
      refine ih (h.push ?_) (fun s => ?_) hrest
      · simpa [hseen] using hfirst
      · rw [contains_push, hseen, List.contains_cons]

theorem agrees_of_nodup (h : (es.map Prod.fst).Nodup) : (es.foldl push empty).Agrees :=
  agrees_empty.foldl_push (fun _ => rfl) (areNew_of_nodup h)

/-! ## Look-ups -/

section Agrees

variable (h : x.Agrees)

include h

theorem Agrees.hasDistinctNames : x.HasDistinctNames := by
  rw [HasDistinctNames, List.nodup_iff_getElem?_ne_getElem?]
  intro i j hij hj heq
  rw [List.length_map] at hj
  -- two entries with the same name would both stand at its position
  have hjth : x.entries[j]? = some x.entries[j] := List.getElem?_eq_getElem hj
  have hith : x.entries[i]? = some x.entries[i] := List.getElem?_eq_getElem (hij.trans hj)
  rw [List.getElem?_map, List.getElem?_map, hith, hjth] at heq
  have hi := (h x.entries[j].1 i).2 ⟨_, by rw [hith, ← Option.some.inj heq]⟩
  rw [(h x.entries[j].1 j).2 ⟨_, hjth⟩] at hi
  exact hij.ne (Option.some.inj hi).symm

theorem Agrees.token?_eq_some_iff_mem : x.token? s = some c ↔ (s, c) ∈ x.entries := by
  rw [List.mem_iff_getElem?]
  unfold token?
  cases hposition : x.positions.get? s with
  | none =>
      simp only [reduceCtorEq, false_iff, not_exists]
      intro i hi
      rw [(h s i).2 ⟨c, hi⟩] at hposition
      cases hposition
  | some i =>
      obtain ⟨d, hd⟩ := (h s i).1 hposition
      simp only [hd, Option.map_some, Option.some.injEq]
      constructor
      · rintro rfl
        exact ⟨i, hd⟩
      · rintro ⟨j, hj⟩
        have hij := (h s j).2 ⟨c, hj⟩
        rw [hposition] at hij
        obtain rfl := Option.some.inj hij
        rw [hd] at hj
        cases hj
        rfl

theorem Agrees.token?_eq : x.token? s = x.toVocabulary.token? s := by
  apply Option.ext
  intro c
  rw [h.token?_eq_some_iff_mem, token?_eq_some_iff h.hasDistinctNames]

theorem Agrees.element?_eq : x.element? s = x.toVocabulary.element? s := by
  have htoken : x.token? s = x.toVocabulary.token? s := h.token?_eq
  unfold element? Vocabulary.element?
  cases hx : x.token? s with
  | none => simp [← htoken, hx]
  | some c => simp [← htoken, hx]

end Agrees

/-! ## The known kinds -/

theorem builtin_eq_foldl : builtin =
    { Vocabulary.builtin.entries.foldl push empty with rules := grammarRules } := by
  rw [builtin, Vocabulary.builtin, List.foldl_flatMap, List.foldl_filter]
  have hstep : pushKind = fun x k =>
      if (k != .eof) = true then (entriesOf k).foldl push x else x := by
    funext x k
    unfold pushKind
    by_cases hk : k = .eof <;> simp [hk]
  rw [hstep]

theorem toVocabulary_builtin : builtin.toVocabulary = Vocabulary.builtin := by
  rw [builtin_eq_foldl]
  show Vocabulary.mk (Vocabulary.builtin.entries.foldl push empty).entries grammarRules = _
  rw [entries_foldl_push]
  rfl

theorem agrees_builtin : builtin.Agrees := by
  rw [builtin_eq_foldl]
  exact agrees_of_nodup nodup_names_builtin

/-! ## Tokens files -/

variable {number : Nat} {lines : List (List Char)} {text : String}

/-- Asking the index whether a name is new gives what the list of earlier names gives. -/
theorem readLines_eq_map (hseen : ∀ s, x.contains s = seen.contains s) :
    x.readLines number lines =
      (Vocabulary.readLines number seen lines).map fun es => es.foldl push x := by
  induction lines generalizing number seen x with
  | nil => rfl
  | cons line lines ih =>
      rw [readLines, readLine, Vocabulary.readLines]
      by_cases hblank : (Text.trim line).isEmpty
      · simp only [hblank, if_true]
        exact ih hseen
      · simp only [hblank, Bool.false_eq_true, if_false]
        cases readEntry (Text.trim line) with
        | error cause => rfl
        | ok e =>
            by_cases hname : seen.contains e.1
            · simp only [hseen, hname, if_true]
              rfl
            · have hseen' : ∀ s, (x.push e).contains s = (e.1 :: seen).contains s := by
                intro s
                rw [contains_push, hseen, List.contains_cons]
              simp only [hseen, hname, Bool.false_eq_true, if_false, ih hseen']
              cases Vocabulary.readLines (number + 1) (e.1 :: seen) lines <;> rfl

theorem ofTokens_eq_map (text : String) :
    ofTokens text =
      (Vocabulary.ofTokens text).map fun v => v.entries.foldl push empty := by
  have hseen : ∀ s, empty.contains s = ([] : List String).contains s := fun s => rfl
  rw [ofTokens, Vocabulary.ofTokens, readLines_eq_map hseen]
  cases Vocabulary.readLines 1 [] (Text.lines text.toList) <;> rfl

theorem map_toVocabulary_ofTokens (text : String) :
    (ofTokens text).map toVocabulary = Vocabulary.ofTokens text := by
  rw [ofTokens_eq_map]
  cases hread : Vocabulary.ofTokens text with
  | error e => rfl
  | ok v =>
      have hrules := (ofTokens_eq_ok_iff.1 hread).1
      show Except.ok (Vocabulary.mk _ _) = Except.ok v
      rw [entries_foldl_push, rules_foldl_push, empty, List.nil_append, ← hrules]

theorem agrees_of_ofTokens (h : ofTokens text = .ok x) :
    Vocabulary.ofTokens text = .ok x.toVocabulary ∧ x.Agrees := by
  have hread : Vocabulary.ofTokens text = .ok x.toVocabulary := by
    rw [← map_toVocabulary_ofTokens, h]
    rfl
  refine ⟨hread, ?_⟩
  rw [ofTokens_eq_map, hread] at h
  rw [← Except.ok.inj h]
  exact agrees_of_nodup (hasDistinctNames_of_ofTokens hread)

/-! ## All look-ups -/

/-- Every look-up answers by the entries and the rules: names have one form and one entry each, the
positions are those of the entries, and a code that is shared belongs to its first symbolic name. -/
structure AnswersByEntries (x : IndexedVocabulary) : Prop where
  distinctNames : x.HasDistinctNames
  forms : ∀ e ∈ x.entries, (IsSymbolic e.1.toList ↔ ¬IsQuoted e.1.toList)
  positions : ∀ (s : String) (i : Nat),
    x.positions.get? s = some i ↔ ∃ c, x.entries[i]? = some (s, c)
  token : ∀ s c, x.token? s = some c ↔ (s, c) ∈ x.entries
  tokenSearched : ∀ s, x.token? s = x.toVocabulary.token? s
  elementSearched : ∀ s, x.element? s = x.toVocabulary.element? s
  symbolic : x.symbolic = x.entries.filter fun e => isSymbolicName e.1.toList
  tokenName : ∀ c s, x.tokenName? c = some s ↔
    ∃ before after, x.entries = before ++ (s, c) :: after ∧ IsSymbolic s.toList ∧
      ∀ e ∈ before, IsSymbolic e.1.toList → e.2 ≠ c
  noTokenName : ∀ c, x.tokenName? c = none ↔ ∀ e ∈ x.entries, IsSymbolic e.1.toList → e.2 ≠ c
  tokenOfTokenName : ∀ c s, x.tokenName? c = some s → x.token? s = some c
  element : ∀ s a, x.element? s = some a ↔ (∃ c, (s, c) ∈ x.entries ∧ a = .token c) ∨
    s ∉ x.entries.map Prod.fst ∧ ∃ i, x.ruleName? i = some s ∧ a = .rule i
  rule : ∀ s i, x.rule? s = some i ↔ x.ruleName? i = some s
  ruleNumber : ∀ s i, x.rule? s = some i → i < 65536

theorem Agrees.answersByEntries (h : x.Agrees)
    (hforms : ∀ e ∈ x.entries, IsSymbolic e.1.toList ∨ IsQuoted e.1.toList)
    (hrules : x.rules.Nodup) (hlength : x.rules.length ≤ 65536) : x.AnswersByEntries := by
  have hform : ∀ e ∈ x.entries, (IsSymbolic e.1.toList ↔ ¬IsQuoted e.1.toList) := fun e he =>
    ⟨IsSymbolic.not_isQuoted, (hforms e he).resolve_right⟩
  have hnames := h.hasDistinctNames
  have hfirst : ∀ c s, x.tokenName? c = some s ↔
      ∃ before after, x.entries = before ++ (s, c) :: after ∧ IsSymbolic s.toList ∧
        ∀ e ∈ before, IsSymbolic e.1.toList → e.2 ≠ c := by
    intro c s
    rw [tokenName?_eq_some_iff_first]
    refine exists_congr fun before => exists_congr fun after => and_congr_right fun hentries => ?_
    rw [hentries] at hform
    rw [hform (s, c) (by simp)]
    refine and_congr_right fun _ => forall₂_congr fun e he => ?_
    rw [hform e (List.mem_append_left _ he)]
  exact
    { distinctNames := hnames
      forms := hform
      positions := h
      token := fun s c => h.token?_eq_some_iff_mem
      tokenSearched := fun s => h.token?_eq
      elementSearched := fun s => h.element?_eq
      symbolic := by
        refine List.filter_congr fun e he => ?_
        rw [Bool.eq_iff_iff, isSymbolicName_iff, hform e he, ← isLiteralName_iff]
        simp
      tokenName := hfirst
      noTokenName := fun c => by
        rw [tokenName?_eq_none_iff]
        exact forall₂_congr fun e he => by rw [hform e he]
      tokenOfTokenName := fun c s hs => by
        obtain ⟨before, after, hentries, -⟩ := (hfirst c s).1 hs
        rw [h.token?_eq_some_iff_mem, hentries]
        simp
      element := fun s a => by rw [h.element?_eq, element?_eq_some_iff hnames hrules]
      rule := fun s i => rule?_eq_some_iff hrules
      ruleNumber := fun s i hi => by
        have hname := (rule?_eq_some_iff hrules).1 hi
        exact ((List.getElem?_eq_some_iff.1 hname).1).trans_le hlength }

/-- Whether it is that of the known kinds or comes from a tokens file, a vocabulary with an index is
the one that is searched, and every look-up answers by its entries and rules. -/
theorem lookups_answerByEntries :
    (builtin.toVocabulary = Vocabulary.builtin ∧ builtin.AnswersByEntries) ∧
      ∀ text, (ofTokens text).map toVocabulary = Vocabulary.ofTokens text ∧
        ∀ x, ofTokens text = .ok x → x.AnswersByEntries := by
  refine ⟨⟨toVocabulary_builtin, agrees_builtin.answersByEntries ?_ ?_ ?_⟩,
    fun text => ⟨map_toVocabulary_ofTokens text, fun x h => ?_⟩⟩
  · rw [toVocabulary_builtin]
    exact fun e he => (IsWritable.of_mem_builtin he).isName
  · rw [toVocabulary_builtin]
    exact nodup_grammarRules
  · rw [toVocabulary_builtin]
    decide
  · obtain ⟨hread, hagrees⟩ := agrees_of_ofTokens h
    have hrules : x.rules = [] := (ofTokens_eq_ok_iff.1 hread).1
    refine hagrees.answersByEntries (fun e he => (IsWritable.of_ofTokens hread e he).isName) ?_ ?_
    · rw [hrules]
      exact List.nodup_nil
    · simp [hrules]

/-- Three names share a code, which is called by the first of them that is no literal. -/
theorem lookups_answerByEntries_shared :
    ∃ x, ofTokens "'+'=7\nB=7\nA=+07" = .ok x ∧ x.AnswersByEntries ∧ x.tokenName? 7 = some "B" ∧
      x.token? "'+'" = some 7 ∧ x.token? "A" = some 7 := by
  have hread : Vocabulary.ofTokens "'+'=7\nB=7\nA=+07" =
      .ok ⟨[("'+'", 7), ("B", 7), ("A", 7)], []⟩ := by decide +kernel
  have hindexed : ofTokens "'+'=7\nB=7\nA=+07" =
      .ok ([("'+'", 7), ("B", 7), ("A", 7)].foldl push empty) := by
    rw [ofTokens_eq_map, hread]
    rfl
  have hanswers := (lookups_answerByEntries.2 _).2 _ hindexed
  refine ⟨_, hindexed, hanswers, ?_, ?_, ?_⟩
  · refine (hanswers.tokenName 7 "B").2 ⟨[("'+'", 7)], [("A", 7)], entries_foldl_push _ _, ?_, ?_⟩
    · exact isSymbolicName_iff.1 (by decide)
    · simp [← isSymbolicName_iff, isSymbolicName]
  · rw [hanswers.token, entries_foldl_push]
    decide
  · rw [hanswers.token, entries_foldl_push]
    decide

end IndexedVocabulary

end TokenHighlight
