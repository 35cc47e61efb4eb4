import Mathlib.Tactic.SplitIfs
import TokenHighlight.Json.Printer
import TokenHighlight.Json.Text

/-!
# JSON strings written and read

`Spells` is the grammar of what may stand between the quotation marks of a JSON string: every
character either as it is or by one of its escape sequences.  What is spelled is read
(`readString_append`), and the printer spells every text (`spells_flatMap_escape`).
-/

namespace TokenHighlight

namespace Json

variable {ws cs rest : List Char}

/-! ## Blanks -/

/-- Nothing but blanks. -/
def IsBlanks (ws : List Char) : Prop := ∀ c ∈ ws, isBlank c

theorem isBlanks_nil : IsBlanks [] := by simp [IsBlanks]

theorem isBlanks_space : IsBlanks [' '] := by simp [IsBlanks, isBlank]

theorem isBlanks_newline (depth : Nat) : IsBlanks (newline depth) := by
  intro c hc
  rcases List.mem_cons.1 hc with rfl | hc
  · rfl
  · rw [List.eq_of_mem_replicate hc]
    rfl

@[simp] theorem skipBlanks_append (h : IsBlanks ws) (cs : List Char) :
    skipBlanks (ws ++ cs) = skipBlanks cs :=
  List.dropWhile_append_of_pos h

@[simp] theorem skipBlanks_cons {c : Char} (h : isBlank c = false) (cs : List Char) :
    skipBlanks (c :: cs) = c :: cs :=
  List.dropWhile_cons_of_neg (by simp [h])

/-! ## Marks -/

/-- What stands before an item: nothing before the first, a comma before each other one. -/
inductive Leads : Bool → List Char → Prop
  | first : Leads true []
  | comma {before : List Char} (h : IsBlanks before) : Leads false (before ++ [','])

theorem Leads.nextItem_append {first : Bool} {lead : List Char} {c : Char} (h : Leads first lead)
    (hws : IsBlanks ws) (hblank : isBlank c = false) (hend : c ≠ ']') (cs : List Char) :
    nextItem first (lead ++ (ws ++ c :: cs)) = .ok (some (c :: cs)) := by
  cases h with
  | first => simp [nextItem, hws, hblank]
  | comma h => simp [nextItem, h, hws, skipBlanks_cons (c := ',') rfl, hblank, hend]

theorem nextItem_end (h : IsBlanks ws) (first : Bool) (cs : List Char) :
    nextItem first (ws ++ ']' :: cs) = .ok none := by
  simp [nextItem, h, skipBlanks_cons (c := ']') rfl]

theorem endList_append (h : IsBlanks ws) (cs : List Char) : endList (ws ++ ']' :: cs) = .ok cs := by
  simp [endList, h, skipBlanks_cons (c := ']') rfl]

theorem Leads.nextKey_append {first : Bool} {lead : List Char} (h : Leads first lead)
    (hws : IsBlanks ws) (cs : List Char) :
    nextKey first (lead ++ (ws ++ '"' :: cs)) = .ok (some cs) := by
  cases h with
  | first => simp [nextKey, hws, skipBlanks_cons (c := '"') rfl]
  | comma h =>
      simp [nextKey, h, hws, skipBlanks_cons (c := ',') rfl, skipBlanks_cons (c := '"') rfl]

theorem nextKey_end (h : IsBlanks ws) (first : Bool) (cs : List Char) :
    nextKey first (ws ++ '\x7d' :: cs) = .ok none := by
  simp [nextKey, h, skipBlanks_cons (c := '\x7d') rfl]

theorem colon_append (h : IsBlanks ws) (cs : List Char) : colon (ws ++ ':' :: cs) = .ok cs := by
  simp [colon, h, skipBlanks_cons (c := ':') rfl]

theorem endObject_append (h : IsBlanks ws) (cs : List Char) :
    endObject (ws ++ '\x7d' :: cs) = .ok cs := by
  simp [endObject, h, skipBlanks_cons (c := '\x7d') rfl]

/-! ## Strings -/

/-- The ways to write one character of a string. -/
inductive SpellsChar : List Char → Char → Prop
  | plain {c : Char} (hcontrol : 32 ≤ c.toNat) (hquote : c ≠ '"') (hslash : c ≠ '\\') :
      SpellsChar [c] c
  | letter {e c : Char} (h : simpleEscape? e = some c) : SpellsChar ['\\', e] c
  | unit {a b c d : Char} {n : Nat} (hn : Hex.accumulate? 0 [a, b, c, d] = some n)
      (hhigh : isHighSurrogate n = false) (hlow : isLowSurrogate n = false) :
      SpellsChar ['\\', 'u', a, b, c, d] (Char.ofNat n)
  | pair {a b c d e f g h : Char} {n m : Nat} (hn : Hex.accumulate? 0 [a, b, c, d] = some n)
      (hhigh : isHighSurrogate n) (hm : Hex.accumulate? 0 [e, f, g, h] = some m)
      (hlow : isLowSurrogate m) :
      SpellsChar ['\\', 'u', a, b, c, d, '\\', 'u', e, f, g, h] (ofSurrogates n m)

/-- The ways to write the characters of a string. -/
inductive Spells : List Char → List Char → Prop
  | nil : Spells [] []
  | cons {cs ds s : List Char} {c : Char} (hc : SpellsChar cs c) (hs : Spells ds s) :
      Spells (cs ++ ds) (c :: s)

theorem not_isLowSurrogate_of_isHighSurrogate {n : Nat} (h : isHighSurrogate n) :
    isLowSurrogate n = false := by
  simp only [isHighSurrogate, isLowSurrogate, Bool.and_eq_true, decide_eq_true_eq,
    Bool.and_eq_false_iff, decide_eq_false_iff_not] at h ⊢
  omega

theorem SpellsChar.readString_append {c : Char} (h : SpellsChar cs c) (rest : List Char) :
    readString (cs ++ rest) = push c (readString rest) := by
  cases h with
  | plain hcontrol hquote hslash =>
      have hnot : ¬c.toNat < 32 := by omega
      simp [readString, hslash, hnot]
  | @letter e c h =>
      have he : e ≠ 'u' := by
        rintro rfl
        cases h
      simp [readString, he, h]
  | unit hn hhigh hlow =>
      simp [readString, hn, hhigh, hlow]
  | pair hn hhigh hm hlow =>
      have hfirst := not_isLowSurrogate_of_isHighSurrogate hhigh
      simp [readString, hn, hhigh, hfirst, hm, hlow]

theorem readString_append {s : List Char} (h : Spells cs s) (rest : List Char) :
    readString (cs ++ '"' :: rest) = .ok (s, rest) := by
  induction h with
  | nil => rfl
  | cons hc _ ih => rw [List.append_assoc, hc.readString_append, ih, push]

/-! ## The printer -/

theorem spellsChar_fixed {n : Nat} (h : n < 32) :
    SpellsChar ('\\' :: 'u' :: Hex.fixed Hex.lower 4 n) (Char.ofNat n) := by
  have haccumulate : ∀ n < 32, Hex.accumulate? 0 (Hex.fixed Hex.lower 4 n) = some n := by decide
  have hsurrogate : ∀ n < 32, isHighSurrogate n = false ∧ isLowSurrogate n = false := by decide
  have hn := haccumulate n h
  rw [Hex.fixed_four] at hn ⊢
  exact .unit hn (hsurrogate n h).1 (hsurrogate n h).2

theorem eq_of_toNat_eq {c d : Char} (h : c.toNat = d.toNat) : c = d := by
  rw [← Char.ofNat_toNat c, h, Char.ofNat_toNat]

theorem spellsChar_escape (c : Char) : SpellsChar (escape c) c := by
  unfold escape
  split_ifs with hquote hslash hfeed hreturn htab hback hform hcontrol
  · subst hquote
    exact .letter rfl
  · subst hslash
    exact .letter rfl
  · subst hfeed
    exact .letter rfl
  · subst hreturn
    exact .letter rfl
  · subst htab
    exact .letter rfl
  · obtain rfl : c = '\x08' := eq_of_toNat_eq hback
    exact .letter rfl
  · obtain rfl : c = '\x0c' := eq_of_toNat_eq hform
    exact .letter rfl
  · have hspells := spellsChar_fixed hcontrol
    rwa [Char.ofNat_toNat] at hspells
  · exact .plain (Nat.not_lt.1 hcontrol) hquote hslash

theorem spells_flatMap_escape (s : List Char) : Spells (s.flatMap escape) s := by
  induction s with
  | nil => exact .nil
  | cons c s ih => exact .cons (spellsChar_escape c) ih

end Json

end TokenHighlight
