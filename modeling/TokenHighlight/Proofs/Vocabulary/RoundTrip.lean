import TokenHighlight.Proofs.Vocabulary.Builtin

/-!
# Tokens files written and read

A vocabulary whose names and codes fit on lines is written to a file from which its entries are read
(`ofTokens_toTokens`), and no other vocabularies are ever read (`IsWritable.of_ofTokens`).  What was
read is written back as it was if and only if the file was in canonical form (`toTokens_eq_iff`).
-/

namespace TokenHighlight

open Text

/-! ## Characters of names and codes -/

theorem not_isBlank_of_isAlpha {c : Char} (h : c.isAlpha) : ¬isBlank c := by
  unfold Char.isAlpha Char.isUpper Char.isLower at h
  simp only [Bool.or_eq_true, Bool.and_eq_true, decide_eq_true_eq, ge_iff_le,
    UInt32.le_iff_toNat_le, Char.toNat_val, Char.reduceToNat] at h
  simp only [isBlank, Bool.or_eq_true, Bool.and_eq_true, decide_eq_true_eq, beq_iff_eq]
  omega

theorem exists_name_eq_cons {name : List Char} (h : IsSymbolic name ∨ IsQuoted name) :
    ∃ c cs, name = c :: cs ∧ ¬isBlank c := by
  rcases h with ⟨c, cs, rfl, hc | rfl, -⟩ | ⟨-, hhead, -⟩
  · exact ⟨c, cs, rfl, not_isBlank_of_isAlpha hc⟩
  · exact ⟨'_', cs, rfl, by decide⟩
  · obtain ⟨cs, rfl⟩ := List.head?_eq_some_iff.1 hhead
    exact ⟨'\x27', cs, rfl, by decide⟩

namespace Decimal

theorem IsCanonical.ne_nil {code : List Char} (h : IsCanonical code) : code ≠ [] := by
  rcases h with rfl | ⟨d, ds, -, -, rfl | rfl⟩ <;> exact List.cons_ne_nil _ _

theorem IsCanonical.isDigit_or_minus {code : List Char} (h : IsCanonical code) :
    ∀ c ∈ code, c.isDigit ∨ c = '-' := by
  rcases h with rfl | ⟨d, ds, -, hdigits, rfl | rfl⟩
  · intro c hc
    obtain rfl := List.mem_singleton.1 hc
    exact Or.inl rfl
  · exact fun c hc => Or.inl (hdigits c hc)
  · intro c hc
    rcases List.mem_cons.1 hc with rfl | hc
    · exact Or.inr rfl
    · exact Or.inl (hdigits c hc)

theorem not_mem_ofInt {c : Char} (n : Int) (h : ¬(c.isDigit ∨ c = '-')) : c ∉ ofInt n :=
  fun hmem => h ((isCanonical_ofInt n).isDigit_or_minus c hmem)

/-- No character of a code ends a line, ends a name or is a blank. -/
theorem IsCanonical.inert {code : List Char} (h : IsCanonical code) :
    ∀ c ∈ code, ¬isBlank c ∧ c ≠ '=' ∧ c ≠ '\n' ∧ c ≠ '\r' := by
  have hdigit : ∀ n < 10, ¬isBlank (digit n) ∧ digit n ≠ '=' ∧ digit n ≠ '\n' ∧
      digit n ≠ '\r' := by decide
  intro c hc
  rcases h.isDigit_or_minus c hc with hc | rfl
  · rw [← digit_value hc]
    exact hdigit _ (value_lt hc)
  · decide

theorem IsCanonical.isTrimmed {code : List Char} (h : IsCanonical code) : IsTrimmed code code :=
  isTrimmed_self (fun c hc => (h.inert c (List.mem_of_head? hc)).1)
    fun c hc => (h.inert c (List.mem_of_getLast? hc)).1

end Decimal

/-! ## Lines in canonical form -/

namespace Vocabulary

/-- A name, an equals sign and a code as it is written, and nothing else. -/
def IsCanonicalLine (line : List Char) : Prop :=
  ∃ name code, line = name ++ '=' :: code ∧ (IsSymbolic name ∨ IsQuoted name) ∧ '\n' ∉ name ∧
    Decimal.IsCanonical code

/-- Lines in canonical form, each of which ends with one line feed. -/
def IsCanonicalFile (cs : List Char) : Prop :=
  ∃ lines : List (List Char), cs = lines.flatMap (· ++ ['\n']) ∧ ∀ line ∈ lines, IsCanonicalLine line

theorem getLast?_append_code {name code : List Char} (hcode : Decimal.IsCanonical code) :
    (name ++ '=' :: code).getLast? = code.getLast? := by
  rw [List.getLast?_append, List.getLast?_cons, List.getLast?_eq_some_getLast hcode.ne_nil]
  rfl

theorem IsCanonicalLine.feed_not_mem {line : List Char} (h : IsCanonicalLine line) :
    '\n' ∉ line := by
  obtain ⟨name, code, rfl, -, hfeed, hcode⟩ := h
  intro hmem
  rcases List.mem_append.1 hmem with hmem | hmem
  · exact hfeed hmem
  · rcases List.mem_cons.1 hmem with heq | hmem
    · exact absurd heq (by decide)
    · exact (hcode.inert _ hmem).2.2.1 rfl

theorem IsCanonicalLine.getLast?_ne_return {line : List Char} (h : IsCanonicalLine line) :
    line.getLast? ≠ some '\r' := by
  obtain ⟨name, code, rfl, -, -, hcode⟩ := h
  rw [getLast?_append_code hcode]
  intro hlast
  exact (hcode.inert _ (List.mem_of_getLast? hlast)).2.2.2 rfl

theorem IsCanonicalLine.isTrimmed {line : List Char} (h : IsCanonicalLine line) :
    IsTrimmed line line := by
  obtain ⟨name, code, rfl, hname, -, hcode⟩ := h
  refine isTrimmed_self ?_ ?_
  · obtain ⟨c, cs, rfl, hc⟩ := exists_name_eq_cons hname
    rintro d ⟨⟩
    exact hc
  · rw [getLast?_append_code hcode]
    exact fun c hc => (hcode.inert c (List.mem_of_getLast? hc)).1

theorem IsCanonicalLine.ne_nil {line : List Char} (h : IsCanonicalLine line) : line ≠ [] := by
  obtain ⟨name, code, rfl, -⟩ := h
  simp

/-- A file in canonical form has the lines that it was put together from. -/
theorem isLines_flatMap {lines : List (List Char)} (h : ∀ line ∈ lines, IsCanonicalLine line) :
    IsLines (lines.flatMap (· ++ ['\n'])) lines := by
  induction lines with
  | nil => exact .nil
  | cons line lines ih =>
      rw [List.forall_mem_cons] at h
      rw [List.flatMap_cons, List.append_assoc, List.singleton_append]
      exact .feed h.1.feed_not_mem h.1.getLast?_ne_return (ih h.2)

/-! ## Writing, then reading -/

/-- The line of an entry without its end. -/
def entryText (e : String × Int) : List Char := e.1.toList ++ '=' :: Decimal.ofInt e.2

theorem tokenLines_eq_flatMap (v : Vocabulary) :
    v.tokenLines = (v.entries.map entryText).flatMap (· ++ ['\n']) := by
  rw [tokenLines, List.flatMap_map]
  rfl

/-- A name that fits on a line, and a code of 32 bits. -/
structure IsWritable (e : String × Int) : Prop where
  isName : IsSymbolic e.1.toList ∨ IsQuoted e.1.toList
  feed_not_mem : '\n' ∉ e.1.toList
  isCode : -2147483648 ≤ e.2 ∧ e.2 ≤ 2147483647

theorem IsWritable.isCanonicalLine {e : String × Int} (h : IsWritable e) :
    IsCanonicalLine (entryText e) :=
  ⟨_, _, rfl, h.isName, h.feed_not_mem, Decimal.isCanonical_ofInt e.2⟩

theorem IsWritable.isEntry {e : String × Int} (h : IsWritable e) : IsEntry (entryText e) e := by
  have hcode := Decimal.isCanonical_ofInt e.2
  have hdenotes := Decimal.toInt?_eq_some_iff.1 (Decimal.toInt?_ofInt e.2)
  exact ⟨_, _, rfl, fun hmem => (hcode.inert _ hmem).2.1 rfl, h.isName, hcode.isTrimmed, hdenotes,
    h.isCode⟩

theorem forall_isCanonicalLine {entries : List (String × Int)} (h : ∀ e ∈ entries, IsWritable e) :
    ∀ line ∈ entries.map entryText, IsCanonicalLine line := by
  intro line hline
  obtain ⟨e, he, rfl⟩ := List.mem_map.1 hline
  exact (h e he).isCanonicalLine

theorem holdEntries_map_entryText {entries : List (String × Int)}
    (h : ∀ e ∈ entries, IsWritable e) : HoldEntries (entries.map entryText) entries := by
  induction entries with
  | nil => exact .nil
  | cons e entries ih =>
      rw [List.forall_mem_cons] at h
      exact .entry h.1.isCanonicalLine.isTrimmed h.1.isEntry (ih h.2)

/-- A vocabulary that can be written is read again, apart from its rules. -/
theorem ofTokens_toTokens {v : Vocabulary} (hnodup : (v.entries.map Prod.fst).Nodup)
    (h : ∀ e ∈ v.entries, IsWritable e) : ofTokens v.toTokens = .ok ⟨v.entries, []⟩ := by
  have hlines : Text.lines v.toTokens.toList = v.entries.map entryText := by
    rw [toTokens, String.toList_ofList, tokenLines_eq_flatMap, lines_eq_iff]
    exact isLines_flatMap (forall_isCanonicalLine h)
  rw [ofTokens_eq_ok_iff, hlines, readLines_eq_ok_iff]
  exact ⟨rfl, holdEntries_map_entryText h, areNew_of_nodup hnodup⟩

/-! ## Reading, then writing -/

variable {text : String} {v : Vocabulary} {lines : List (List Char)}
  {entries : List (String × Int)}

theorem IsEntry.isWritable {core : List Char} {e : String × Int} (h : IsEntry core e)
    (hfeed : '\n' ∉ core) : IsWritable e := by
  obtain ⟨code, digits, rfl, -, hname, -, -, hrange⟩ := h
  exact ⟨hname, fun hmem => hfeed (List.mem_append_left _ hmem), hrange⟩

theorem HoldEntries.isWritable (h : HoldEntries lines entries)
    (hfeed : ∀ line ∈ lines, '\n' ∉ line) : ∀ e ∈ entries, IsWritable e := by
  induction h with
  | nil => simp
  | blank _ _ ih => exact ih fun line hline => hfeed line (List.mem_cons_of_mem _ hline)
  | entry hline hentry _ ih =>
      rw [List.forall_mem_cons] at hfeed ⊢
      exact ⟨hentry.isWritable fun hmem => hfeed.1 (hline.subset hmem), ih hfeed.2⟩

theorem IsWritable.of_ofTokens (h : ofTokens text = .ok v) : ∀ e ∈ v.entries, IsWritable e := by
  obtain ⟨-, hread⟩ := ofTokens_eq_ok_iff.1 h
  exact (readLines_eq_ok_iff.1 hread).1.isWritable (isLines_lines _).feed_not_mem

theorem IsEntry.entryText_eq {line : List Char} {e : String × Int} (h : IsEntry line e)
    (hline : IsCanonicalLine line) : entryText e = line := by
  obtain ⟨name, code, rfl, -, -, hcode⟩ := hline
  obtain ⟨code', digits, heq, hcode', -, htrim, hdenotes, -⟩ := h
  -- the last equals sign is in one place only
  have hsplit := splitLast?_append name fun hmem => (hcode.inert _ hmem).2.1 rfl
  rw [heq, splitLast?_append e.1.toList hcode'] at hsplit
  cases hsplit
  obtain rfl : digits = code := htrim.unique hcode.isTrimmed
  rw [entryText, Decimal.ofInt_of_isCanonical hcode (Decimal.toInt?_eq_some_iff.2 hdenotes)]

/-- Lines in canonical form are written as they were. -/
theorem HoldEntries.map_entryText (h : HoldEntries lines entries)
    (hlines : ∀ line ∈ lines, IsCanonicalLine line) : entries.map entryText = lines := by
  induction h with
  | nil => rfl
  | @blank line _ _ hline _ _ =>
      have hcanonical := hlines line List.mem_cons_self
      exact absurd (hcanonical.isTrimmed.unique hline) hcanonical.ne_nil
  | @entry line core _ e _ hline hentry _ ih =>
      rw [List.forall_mem_cons] at hlines
      obtain rfl : line = core := hlines.1.isTrimmed.unique hline
      rw [List.map_cons, hentry.entryText_eq hlines.1, ih hlines.2]

theorem toTokens_eq_iff (h : ofTokens text = .ok v) :
    v.toTokens = text ↔ IsCanonicalFile text.toList := by
  obtain ⟨-, hread⟩ := ofTokens_eq_ok_iff.1 h
  obtain ⟨hhold, -⟩ := readLines_eq_ok_iff.1 hread
  constructor
  · intro hwrite
    refine ⟨v.entries.map entryText, ?_, forall_isCanonicalLine (IsWritable.of_ofTokens h)⟩
    rw [← hwrite, toTokens, String.toList_ofList, tokenLines_eq_flatMap]
  · rintro ⟨lines, htext, hlines⟩
    rw [htext, lines_eq_iff.2 (isLines_flatMap hlines)] at hhold
    rw [toTokens, tokenLines_eq_flatMap, hhold.map_entryText hlines, ← htext, String.ofList_toList]

/-! ## Both ways -/

theorem IsWritable.of_mem_builtin {e : String × Int} (h : e ∈ builtin.entries) : IsWritable e := by
  obtain ⟨k, -, hname, -⟩ := mem_entries_builtin.1 h
  rcases hname with hname | hliteral
  · have hsymbolic := k.isSymbolic_name
    rw [hname] at hsymbolic
    exact ⟨Or.inl hsymbolic, hsymbolic.feed_not_mem, isCode_of_mem_builtin h⟩
  · obtain ⟨hquoted, hfeed⟩ := Kind.isQuoted_of_literal hliteral
    exact ⟨Or.inr hquoted, hfeed, isCode_of_mem_builtin h⟩

/-- Every vocabulary that was read is read again from its own file, which is the first file if and
only if that was in canonical form.  The entries of the built-in vocabulary are read from its file
as well. -/
theorem toTokens_roundTrips :
    (∀ text v, ofTokens text = .ok v →
      ofTokens v.toTokens = .ok v ∧ (v.toTokens = text ↔ IsCanonicalFile text.toList)) ∧
    ofTokens builtin.toTokens = .ok ⟨builtin.entries, []⟩ := by
  refine ⟨fun text v h => ⟨?_, toTokens_eq_iff h⟩,
    ofTokens_toTokens nodup_names_builtin fun e he => IsWritable.of_mem_builtin he⟩
  obtain ⟨hrules, hread⟩ := ofTokens_eq_ok_iff.1 h
  obtain ⟨-, hnew⟩ := readLines_eq_ok_iff.1 hread
  rw [ofTokens_toTokens hnew.1 (IsWritable.of_ofTokens h), ← hrules]

/-- Signs, leading zeros, blanks and carriage returns are gone after the first round. -/
theorem toTokens_roundTrips_signed :
    ∃ v, ofTokens " ID=+007\r\n\n'= \r'= -0" = .ok v ∧ v.toTokens = "ID=7\n'= \r'=0\n" ∧
      ofTokens v.toTokens = .ok v := by
  have hread : ofTokens " ID=+007\r\n\n'= \r'= -0" = .ok ⟨[("ID", 7), ("'= \r'", 0)], []⟩ := by
    decide
  exact ⟨_, hread, by decide +kernel, (toTokens_roundTrips.1 _ _ hread).1⟩

end Vocabulary

end TokenHighlight
