import Mathlib.Data.List.TakeWhile
import Mathlib.Tactic.SplitIfs
import TokenHighlight.Text.Blank
import TokenHighlight.Text.Lines

/-!
# Lines, blanks and separators

What the ways of cutting up a text come to: `IsLines` says which lines a text has, `IsTrimmed` what
is left of it without the blanks around it.  `lines_eq_iff`, `trim_eq_iff` and
`splitLast?_eq_some_iff` say that the functions find these and nothing else.
-/

namespace TokenHighlight

namespace Text

/-! ## Lines -/

/-- A text and its lines.  A line ends with a line feed, before which a carriage return may stand;
the end of the last line may be missing. -/
inductive IsLines : List Char → List (List Char) → Prop
  | nil : IsLines [] []
  | last {line : List Char} (hne : line ≠ []) (hline : '\n' ∉ line) : IsLines line [line]
  | feed {line rest : List Char} {lines : List (List Char)} (hline : '\n' ∉ line)
      (hreturn : line.getLast? ≠ some '\r') (h : IsLines rest lines) :
      IsLines (line ++ '\n' :: rest) (line :: lines)
  | returnFeed {line rest : List Char} {lines : List (List Char)} (hline : '\n' ∉ line)
      (h : IsLines rest lines) : IsLines (line ++ '\r' :: '\n' :: rest) (line :: lines)

theorem splitOn_of_not_mem {sep : Char} {cs : List Char} (h : sep ∉ cs) : splitOn sep cs = [cs] := by
  induction cs with
  | nil => rfl
  | cons c cs ih =>
      rw [List.mem_cons, not_or] at h
      rw [splitOn, if_neg (Ne.symm h.1), ih h.2]

theorem splitOn_append_cons {sep : Char} {cs : List Char} (h : sep ∉ cs) (rest : List Char) :
    splitOn sep (cs ++ sep :: rest) = cs :: splitOn sep rest := by
  induction cs with
  | nil => rw [List.nil_append, splitOn, if_pos rfl]
  | cons c cs ih =>
      rw [List.mem_cons, not_or] at h
      rw [List.cons_append, splitOn, if_neg (Ne.symm h.1), ih h.2]

theorem splitOn_ne_nil (sep : Char) (cs : List Char) : splitOn sep cs ≠ [] := by
  cases cs with
  | nil => exact List.cons_ne_nil _ _
  | cons c cs =>
      rw [splitOn]
      split_ifs
      · exact List.cons_ne_nil _ _
      · split <;> exact List.cons_ne_nil _ _

theorem lines_of_not_mem {cs : List Char} (hne : cs ≠ []) (h : '\n' ∉ cs) : lines cs = [cs] := by
  rw [lines, splitOn_of_not_mem h, linesOfPieces, if_neg (by simpa using hne)]

theorem lines_append_cons {line : List Char} (h : '\n' ∉ line) (rest : List Char) :
    lines (line ++ '\n' :: rest) = dropReturn line :: lines rest := by
  rw [lines, splitOn_append_cons h, lines]
  cases hrest : splitOn '\n' rest with
  | nil => exact absurd hrest (splitOn_ne_nil _ _)
  | cons piece pieces => rfl

theorem dropReturn_of_getLast?_ne {line : List Char} (h : line.getLast? ≠ some '\r') :
    dropReturn line = line := by
  rw [dropReturn, if_neg h]

theorem dropReturn_append_return (line : List Char) : dropReturn (line ++ ['\r']) = line := by
  rw [dropReturn, if_pos List.getLast?_concat, List.dropLast_concat]

theorem IsLines.lines_eq {cs : List Char} {ls : List (List Char)} (h : IsLines cs ls) :
    lines cs = ls := by
  induction h with
  | nil => rfl
  | last hne hline => exact lines_of_not_mem hne hline
  | feed hline hreturn _ ih => rw [lines_append_cons hline, dropReturn_of_getLast?_ne hreturn, ih]
  | @returnFeed line rest _ hline _ ih =>
      have hline' : '\n' ∉ line ++ ['\r'] := by simpa using hline
      rw [← ih, ← dropReturn_append_return line, ← lines_append_cons hline',
        dropReturn_append_return, List.append_assoc, List.singleton_append]

theorem isLines_lines (cs : List Char) : IsLines cs (lines cs) := by
  -- each round takes one line and its end off the text
  induction hn : cs.length using Nat.strongRecOn generalizing cs with
  | ind n ih =>
      by_cases hmem : '\n' ∈ cs
      · obtain ⟨line, rest, rfl, hline⟩ := List.eq_append_cons_of_mem hmem
        have hrest : IsLines rest (lines rest) := by
          refine ih rest.length ?_ rest rfl
          rw [← hn, List.length_append, List.length_cons]
          omega
        rw [lines_append_cons hline]
        by_cases hreturn : line.getLast? = some '\r'
        · obtain ⟨line', rfl⟩ := List.getLast?_eq_some_iff.1 hreturn
          rw [dropReturn_append_return, List.append_assoc, List.singleton_append]
          exact .returnFeed (fun h => hline (List.mem_append_left _ h)) hrest
        · rw [dropReturn_of_getLast?_ne hreturn]
          exact .feed hline hreturn hrest
      · by_cases hne : cs = []
        · subst hne
          exact .nil
        · rw [lines_of_not_mem hne hmem]
          exact .last hne hmem

theorem lines_eq_iff {cs : List Char} {ls : List (List Char)} : lines cs = ls ↔ IsLines cs ls := by
  constructor
  · rintro rfl
    exact isLines_lines cs
  · exact IsLines.lines_eq

theorem IsLines.feed_not_mem {cs : List Char} {ls : List (List Char)} (h : IsLines cs ls) :
    ∀ line ∈ ls, '\n' ∉ line := by
  induction h with
  | nil => simp
  | last _ hline => simpa using hline
  | feed hline _ _ ih | returnFeed hline _ ih => exact List.forall_mem_cons.2 ⟨hline, ih⟩

/-! ## Blanks -/

/-- What is left of a text without the blanks at its ends. -/
def IsTrimmed (cs core : List Char) : Prop :=
  ∃ left right, left ++ (core ++ right) = cs ∧ (∀ c ∈ left, isBlank c) ∧ (∀ c ∈ right, isBlank c) ∧
    (∀ c ∈ core.head?, ¬isBlank c) ∧ ∀ c ∈ core.getLast?, ¬isBlank c

theorem isTrimmed_self {cs : List Char} (hhead : ∀ c ∈ cs.head?, ¬isBlank c)
    (hlast : ∀ c ∈ cs.getLast?, ¬isBlank c) : IsTrimmed cs cs :=
  ⟨[], [], List.append_nil cs, by simp, by simp, hhead, hlast⟩

theorem IsTrimmed.subset {cs core : List Char} (h : IsTrimmed cs core) : core ⊆ cs := by
  obtain ⟨left, right, rfl, -⟩ := h
  exact fun c hc => List.mem_append_right _ (List.mem_append_left _ hc)

theorem trimLeft_append {left core : List Char} (hleft : ∀ c ∈ left, isBlank c)
    (hcore : ∀ c ∈ core.head?, ¬isBlank c) : trimLeft (left ++ core) = core := by
  rw [trimLeft, List.dropWhile_append_of_pos hleft]
  cases core with
  | nil => rfl
  | cons c cs => rw [List.dropWhile_cons_of_neg (hcore c rfl)]

theorem exists_append_trimLeft (cs : List Char) : ∃ left, left ++ trimLeft cs = cs ∧
    (∀ c ∈ left, isBlank c) ∧ ∀ c ∈ (trimLeft cs).head?, ¬isBlank c := by
  refine ⟨cs.takeWhile isBlank, List.takeWhile_append_dropWhile,
    fun c hc => List.mem_takeWhile_imp hc, fun c hc => ?_⟩
  have hnot := List.head?_dropWhile_not isBlank cs
  rw [trimLeft, Option.mem_def] at hc
  rw [hc] at hnot
  simp [hnot]

theorem trimRight_eq_reverse (cs : List Char) : trimRight cs = (trimLeft cs.reverse).reverse := rfl

theorem trimRight_append {core right : List Char} (hright : ∀ c ∈ right, isBlank c)
    (hcore : ∀ c ∈ core.getLast?, ¬isBlank c) : trimRight (core ++ right) = core := by
  rw [trimRight_eq_reverse, List.reverse_append, trimLeft_append, List.reverse_reverse]
  · exact fun c hc => hright c (List.mem_reverse.1 hc)
  · rwa [List.head?_reverse]

theorem exists_trimRight_append (cs : List Char) : ∃ right, trimRight cs ++ right = cs ∧
    (∀ c ∈ right, isBlank c) ∧ ∀ c ∈ (trimRight cs).getLast?, ¬isBlank c := by
  obtain ⟨left, happend, hleft, hhead⟩ := exists_append_trimLeft cs.reverse
  refine ⟨left.reverse, ?_, fun c hc => hleft c (List.mem_reverse.1 hc), ?_⟩
  · rw [trimRight_eq_reverse, ← List.reverse_append, happend, List.reverse_reverse]
  · rwa [trimRight_eq_reverse, List.getLast?_reverse]

theorem trim_eq_iff {cs core : List Char} : trim cs = core ↔ IsTrimmed cs core := by
  constructor
  · rintro rfl
    obtain ⟨left, hcs, hleft, hhead⟩ := exists_append_trimLeft cs
    obtain ⟨right, hmid, hright, hlast⟩ := exists_trimRight_append (trimLeft cs)
    refine ⟨left, right, by rw [trim, hmid, hcs], hleft, hright, fun c hc => hhead c ?_, hlast⟩
    -- what is trimmed on the right begins like the whole
    rw [trim, Option.mem_def] at hc
    rw [← hmid, List.head?_append, hc]
    rfl
  · rintro ⟨left, right, rfl, hleft, hright, hhead, hlast⟩
    cases core with
    | nil =>
        have hall : ∀ c ∈ left ++ right, isBlank c := by
          intro c hc
          exact (List.mem_append.1 hc).elim (hleft c) (hright c)
        have htrim : trimLeft (left ++ right ++ []) = [] := trimLeft_append hall (by simp)
        rw [List.append_nil] at htrim
        rw [List.nil_append, trim, htrim]
        rfl
    | cons c cs =>
        have hhead' : ∀ d ∈ (c :: cs ++ right).head?, ¬isBlank d := hhead
        rw [trim, trimLeft_append hleft hhead', trimRight_append hright hlast]

theorem IsTrimmed.unique {cs a b : List Char} (ha : IsTrimmed cs a) (hb : IsTrimmed cs b) : a = b :=
  (trim_eq_iff.2 ha).symm.trans (trim_eq_iff.2 hb)

/-! ## Separators -/

theorem splitLast?_eq_none_iff {sep : Char} {cs : List Char} :
    splitLast? sep cs = none ↔ sep ∉ cs := by
  induction cs with
  | nil => simp [splitLast?]
  | cons c cs ih =>
      rw [splitLast?, List.mem_cons, not_or, ← ih]
      cases splitLast? sep cs with
      | none => simp [eq_comm]
      | some p => simp

theorem splitLast?_append {sep : Char} {after : List Char} (before : List Char)
    (h : sep ∉ after) : splitLast? sep (before ++ sep :: after) = some (before, after) := by
  induction before with
  | nil => rw [List.nil_append, splitLast?, splitLast?_eq_none_iff.2 h, if_pos rfl]
  | cons c before ih => rw [List.cons_append, splitLast?, ih]

theorem splitLast?_eq_some_iff {sep : Char} {cs before after : List Char} :
    splitLast? sep cs = some (before, after) ↔ cs = before ++ sep :: after ∧ sep ∉ after := by
  constructor
  · intro h
    induction cs generalizing before with
    | nil => cases h
    | cons c cs ih =>
        rw [splitLast?] at h
        split at h
        · rename_i b a hrest
          cases h
          obtain ⟨rfl, ha⟩ := ih hrest
          exact ⟨rfl, ha⟩
        · rename_i hrest
          split_ifs at h with hc
          cases h
          exact ⟨congrArg (· :: after) hc, splitLast?_eq_none_iff.1 hrest⟩
  · rintro ⟨rfl, h⟩
    exact splitLast?_append before h

/-! ## Printed lines -/

/-- The text has these lines, each of which ends with a line feed. -/
structure HasLines (lines : List String) (text : String) : Prop where
  eq_join : text = String.join (lines.map fun line => line ++ "\n")
  feed_not_mem : ∀ line ∈ lines, '\n' ∉ line.toList

/-- Of printed lines, the blanks at the end are the last line feed if the last line does not end
with a blank itself. -/
theorem HasLines.trimRight_append {lines : List String} {line text : String} {c : Char}
    (h : HasLines (lines ++ [line]) text) (hlast : line.toList.getLast? = some c)
    (hc : ¬isBlank c) : String.ofList (trimRight text.toList) ++ "\n" = text := by
  have htext : text = (String.join (lines.map fun line => line ++ "\n") ++ line) ++ "\n" := by
    rw [h.eq_join]
    simp [String.append_assoc]
  have htrim : trimRight ((String.join (lines.map fun line => line ++ "\n") ++ line).toList ++
      "\n".toList) = (String.join (lines.map fun line => line ++ "\n") ++ line).toList := by
    refine Text.trimRight_append (fun d hd => ?_) fun d hd => ?_
    · obtain rfl : d = '\n' := by simpa using hd
      decide
    · rw [String.toList_append, List.getLast?_append, hlast] at hd
      cases hd
      exact hc
  rw [htext, String.toList_append, htrim, String.ofList_toList]

end Text

end TokenHighlight
