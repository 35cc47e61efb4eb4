import Mathlib.Tactic.SplitIfs
import TokenHighlight.Toml.Printer

/-!
# TOML strings and keys written and read

`SpellsKey` is the grammar of a key of one part: bare, or in quotation marks of either kind.  What
is spelled is read (`SpellsKey.readKey_append`), and the printer spells every text as a key
(`spellsKey_keyText`), so no text is lost or changed when it is used as a key.
-/

namespace TokenHighlight

namespace Toml

variable {cs ks rest : List Char} {c : Char}

/-! ## Blanks -/

theorem skipBlanks_cons (h : isBlank c = false) (cs : List Char) : skipBlanks (c :: cs) = c :: cs :=
  List.dropWhile_cons_of_neg (by simp [h])

theorem skipBlanks_space_cons (h : isBlank c = false) (cs : List Char) :
    skipBlanks (' ' :: c :: cs) = c :: cs := by
  rw [skipBlanks, List.dropWhile_cons_of_pos rfl]
  exact skipBlanks_cons h cs

/-! ## Characters -/

theorem isVisible_of_not_isControl (h : ¬isControl c) : isVisible c := by
  simp only [isControl, Bool.or_eq_true, decide_eq_true_eq, beq_iff_eq, not_or] at h
  simp only [isVisible, Bool.or_eq_true, Bool.and_eq_true, decide_eq_true_eq, beq_iff_eq,
    bne_iff_ne]
  omega

theorem toNat_lt_of_isControl (h : isControl c) : c.toNat < 128 := by
  simp only [isControl, Bool.or_eq_true, decide_eq_true_eq, beq_iff_eq] at h
  omega

theorem isVisible_of_not_needsCodes (h : ¬needsCodes cs) (hc : c ∈ cs) : isVisible c := by
  by_cases hcontrol : isControl c
  · -- the only control character that needs no code is the tab
    have htab : c = '\t' := by
      refine Decidable.byContradiction fun hne => h ?_
      exact List.any_eq_true.2 ⟨c, hc, by simp [hcontrol, hne]⟩
    rw [htab]
    rfl
  · exact isVisible_of_not_isControl hcontrol

/-! ## Strings -/

theorem codePoint?_fixed {n : Nat} (h : n < 128) :
    codePoint? (Hex.fixed Hex.upper 4 n) = some (Char.ofNat n) := by
  have hall : ∀ n < 128, codePoint? (Hex.fixed Hex.upper 4 n) = some (Char.ofNat n) := by decide
  exact hall n h

theorem readBasic_plain (hquote : c ≠ '"') (hslash : c ≠ '\\') (hvisible : isVisible c)
    (rest : List Char) : readBasic (c :: rest) = push c (readBasic rest) := by
  rw [readBasic]
  · rw [if_pos hvisible]
  all_goals simp [hquote, hslash]

theorem readBasic_code (h : isControl c) (rest : List Char) :
    readBasic ('\\' :: 'u' :: Hex.fixed Hex.upper 4 c.toNat ++ rest) = push c (readBasic rest) := by
  have hcode := codePoint?_fixed (toNat_lt_of_isControl h)
  rw [Hex.fixed_four, Char.ofNat_toNat] at hcode
  rw [Hex.fixed_four]
  show push? (codePoint? _) (readBasic rest) = push c (readBasic rest)
  rw [hcode, push?]

theorem readBasic_escapeBasic_append (c : Char) (rest : List Char) :
    readBasic (escapeBasic c ++ rest) = push c (readBasic rest) := by
  unfold escapeBasic
  split_ifs with hquote hslash hback htab hfeed hform hreturn hcontrol
  · subst hquote; rfl
  · subst hslash; rfl
  · subst hback; rfl
  · subst htab; rfl
  · subst hfeed; rfl
  · subst hform; rfl
  · subst hreturn; rfl
  · exact readBasic_code hcontrol rest
  · exact readBasic_plain hquote hslash (isVisible_of_not_isControl hcontrol) rest

theorem readBasic_flatMap_escapeBasic (cs rest : List Char) :
    readBasic (cs.flatMap escapeBasic ++ '"' :: rest) = some (cs, rest) := by
  induction cs with
  | nil => rfl
  | cons c cs ih =>
      rw [List.flatMap_cons, List.append_assoc, readBasic_escapeBasic_append, ih]
      rfl

theorem readLiteral_append (hvisible : ∀ c ∈ cs, isVisible c) (hquote : '\x27' ∉ cs)
    (rest : List Char) : readLiteral (cs ++ '\x27' :: rest) = some (cs, rest) := by
  induction cs with
  | nil => rfl
  | cons c cs ih =>
      rw [List.mem_cons, not_or] at hquote
      have htail := ih (fun d hd => hvisible d (List.mem_cons_of_mem c hd)) hquote.2
      rw [List.cons_append, readLiteral, if_pos (hvisible c List.mem_cons_self), htail]
      · rfl
      · rintro rfl
        exact hquote.1 rfl

theorem escapeBasic_eq_cons (c : Char) : ∃ d ds, escapeBasic c = d :: ds ∧ d ≠ '"' := by
  unfold escapeBasic
  split_ifs with hquote
  case neg => exact ⟨c, [], rfl, hquote⟩
  all_goals exact ⟨'\\', _, rfl, by decide⟩

theorem readString_quote (h : ∀ ds, cs ≠ '"' :: '"' :: ds) :
    readString ('"' :: cs) = readBasic cs := by
  rw [readString]
  exact h

theorem readString_basicString_append (cs : List Char) (h : rest.head? ≠ some '"') :
    readString (basicString cs ++ rest) = some (cs, rest) := by
  rw [basicString, List.cons_append, List.cons_append, List.append_assoc, List.singleton_append,
    readString_quote, readBasic_flatMap_escapeBasic]
  intro ds hds
  cases cs with
  | nil =>
      rw [List.flatMap_nil, List.nil_append, List.cons.injEq] at hds
      exact h (by rw [hds.2, List.head?_cons])
  | cons c cs =>
      obtain ⟨d, es, hescape, hd⟩ := escapeBasic_eq_cons c
      rw [List.flatMap_cons, hescape, List.cons_append, List.cons_append, List.cons.injEq] at hds
      exact hd hds.1

/-! ## Keys -/

/-- The ways to write a key of one part. -/
inductive SpellsKey : List Char → List Char → Prop
  | bare {cs : List Char} (hne : cs ≠ []) (h : ∀ c ∈ cs, isBare c) : SpellsKey cs cs
  | basic (cs : List Char) : SpellsKey (basicString cs) cs
  | literal {cs : List Char} (hvisible : ∀ c ∈ cs, isVisible c) (hquote : '\x27' ∉ cs) :
      SpellsKey (literalString cs) cs

/-- The characters that a key starts with. -/
def startsKey (c : Char) : Bool := isBare c || c == '"' || c == '\x27'

theorem ne_of_startsKey {d : Char} (h : startsKey c) (hd : startsKey d = false) : c ≠ d := by
  rintro rfl
  rw [h] at hd
  exact Bool.noConfusion hd

theorem isBlank_of_startsKey (h : startsKey c) : isBlank c = false := by
  have hspace : c ≠ ' ' := ne_of_startsKey h rfl
  have htab : c ≠ '\t' := ne_of_startsKey h rfl
  simp [isBlank, hspace, htab]

theorem SpellsKey.exists_eq_cons (h : SpellsKey ks cs) : ∃ c ds, ks = c :: ds ∧ startsKey c := by
  cases h with
  | bare hne h =>
      obtain ⟨c, ds, rfl⟩ := List.exists_cons_of_ne_nil hne
      exact ⟨c, ds, rfl, by simp [startsKey, h c List.mem_cons_self]⟩
  | basic => exact ⟨'"', _, rfl, rfl⟩
  | literal => exact ⟨'\x27', _, rfl, rfl⟩

theorem SpellsKey.skipBlanks_append (h : SpellsKey ks cs) (rest : List Char) :
    skipBlanks (ks ++ rest) = ks ++ rest := by
  obtain ⟨c, ds, rfl, hc⟩ := h.exists_eq_cons
  exact skipBlanks_cons (isBlank_of_startsKey hc) (ds ++ rest)

theorem readKeyPart_bare (hne : cs ≠ []) (h : ∀ c ∈ cs, isBare c) (hc : isBare c = false)
    (rest : List Char) : readKeyPart (cs ++ c :: rest) = some (cs, c :: rest) := by
  have htake : (cs ++ c :: rest).takeWhile isBare = cs := by
    rw [List.takeWhile_append_of_pos h, List.takeWhile_cons_of_neg (by simp [hc]), List.append_nil]
  have hdrop : (cs ++ c :: rest).dropWhile isBare = c :: rest := by
    rw [List.dropWhile_append_of_pos h, List.dropWhile_cons_of_neg (by simp [hc])]
  -- a bare character is no quotation mark
  have hhead : ∀ d es, cs ++ c :: rest = d :: es → isBare d := by
    intro d es hes
    obtain ⟨b, bs, rfl⟩ := List.exists_cons_of_ne_nil hne
    rw [List.cons_append, List.cons.injEq] at hes
    rw [← hes.1]
    exact h b List.mem_cons_self
  rw [readKeyPart]
  · simp [htake, hdrop, hne]
  · exact fun es hes => absurd (hhead _ es hes) (by decide)
  · exact fun es hes => absurd (hhead _ es hes) (by decide)

theorem SpellsKey.readKeyPart_append (h : SpellsKey ks cs) (hc : isBare c = false)
    (rest : List Char) : readKeyPart (ks ++ c :: rest) = some (cs, c :: rest) := by
  cases h with
  | bare hne h => exact readKeyPart_bare hne h hc rest
  | basic =>
      rw [basicString, List.append_assoc, List.cons_append]
      exact readBasic_flatMap_escapeBasic cs (c :: rest)
  | literal hvisible hquote =>
      rw [literalString, List.append_assoc, List.cons_append]
      exact readLiteral_append hvisible hquote (c :: rest)

theorem SpellsKey.readKey_append (h : SpellsKey ks cs) (hc : isBare c = false) {d : Char}
    {ds : List Char} (hskip : skipBlanks (c :: rest) = d :: ds) (hdot : d ≠ '.') :
    readKey (ks ++ c :: rest) = some ([String.ofList cs], d :: ds) := by
  rw [readKey, maxDepth, readKeyParts, h.skipBlanks_append, h.readKeyPart_append hc]
  simp [hskip, hdot]

theorem spellsKey_keyText (cs : List Char) : SpellsKey (keyText cs) cs := by
  unfold keyText
  split_ifs with hbare hcodes hliteral
  · rw [Bool.and_eq_true, Bool.not_eq_true', List.isEmpty_eq_false_iff, List.all_eq_true] at hbare
    exact .bare hbare.1 hbare.2
  · exact .basic cs
  · rw [Bool.and_eq_true, Bool.not_eq_true', List.contains_eq_mem, decide_eq_false_iff_not]
      at hliteral
    exact .literal (fun c hc => isVisible_of_not_needsCodes hcodes hc) hliteral.2
  · exact .basic cs

end Toml

end TokenHighlight
