import TokenHighlight.Proofs.Number.Decimal
import TokenHighlight.Proofs.Text.Lines
import TokenHighlight.Proofs.Text.Slices
import TokenHighlight.Vocabulary.Tokens

/-!
# The grammar of the tokens format

`IsEntry` is the grammar of one line and `HoldEntries` that of all lines.  `IsMistake` lists what
can be wrong with a line, each time after everything that is checked earlier was right.  A text is
accepted if and only if its lines hold entries with different names, and otherwise the error is
about the first line that does not go on in this way (`ofTokens_accepts_grammar`).
-/

namespace TokenHighlight

open Text

/-! ## Names -/

/-- A letter or an underscore, then letters, digits and underscores. -/
def IsSymbolic (cs : List Char) : Prop :=
  ∃ c ds, cs = c :: ds ∧ (c.isAlpha ∨ c = '_') ∧ ∀ d ∈ ds, d.isAlphanum ∨ d = '_'

/-- At least three bytes, the first and the last of which are single quotes. -/
def IsQuoted (cs : List Char) : Prop :=
  3 ≤ byteLength cs ∧ cs.head? = some '\x27' ∧ cs.getLast? = some '\x27'

theorem isSymbolicName_iff {cs : List Char} : isSymbolicName cs ↔ IsSymbolic cs := by
  cases cs with
  | nil => simp [isSymbolicName, IsSymbolic]
  | cons c cs => simp [isSymbolicName, IsSymbolic, and_assoc]

/-- Between two quotes there is a character if and only if there is a byte. -/
theorem isLiteralName_iff {cs : List Char} : isLiteralName cs ↔ IsQuoted cs := by
  have hquote : '\x27'.utf8Size = 1 := rfl
  simp only [isLiteralName, IsQuoted, Bool.and_eq_true, decide_eq_true_eq, beq_iff_eq, and_assoc]
  refine and_congr_left fun ⟨hhead, hlast⟩ => ?_
  match cs, hhead with
  | [c], hhead =>
      obtain rfl := Option.some.inj hhead
      simp [hquote]
  | [c, d], hhead =>
      obtain rfl := Option.some.inj hhead
      obtain rfl := Option.some.inj hlast
      simp [hquote]
  | c :: d :: b :: cs, _ =>
      have hc := c.utf8Size_pos
      have hd := d.utf8Size_pos
      have hb := b.utf8Size_pos
      simp only [List.length_cons, byteLength_cons]
      omega

namespace Vocabulary

variable {number : Nat} {seen : List String} {line : List Char} {lines : List (List Char)}

/-! ## Lines -/

/-- A line without blanks around it has a name before its last equals sign, and after it, between
blanks, a code of 32 bits. -/
def IsEntry (line : List Char) (e : String × Int) : Prop :=
  ∃ code digits, line = e.1.toList ++ '=' :: code ∧ '=' ∉ code ∧
    (IsSymbolic e.1.toList ∨ IsQuoted e.1.toList) ∧ IsTrimmed code digits ∧
    Decimal.Denotes digits e.2 ∧ -2147483648 ≤ e.2 ∧ e.2 ≤ 2147483647

/-- What is wrong with a line without blanks around it, if the lines before it have the names
`seen`. -/
inductive IsMistake (seen : List String) (line : List Char) : LineError → Prop
  | missingCode (hline : '=' ∉ line) : IsMistake seen line (.missingCode line)
  | invalidName {name code : List Char} (hline : line = name ++ '=' :: code) (hcode : '=' ∉ code)
      (hname : ¬(IsSymbolic name ∨ IsQuoted name)) : IsMistake seen line (.invalidName name)
  | invalidCode {name code : List Char} (hline : line = name ++ '=' :: code) (hcode : '=' ∉ code)
      (hname : IsSymbolic name ∨ IsQuoted name)
      (hnone : ∀ digits n, IsTrimmed code digits → Decimal.Denotes digits n →
        ¬(-2147483648 ≤ n ∧ n ≤ 2147483647)) : IsMistake seen line (.invalidCode code)
  | duplicateName {e : String × Int} (hentry : IsEntry line e) (hseen : e.1 ∈ seen) :
      IsMistake seen line (.duplicateName e.1.toList)

/-- The entries on lines, in order.  Nothing is on a line of blanks. -/
inductive HoldEntries : List (List Char) → List (String × Int) → Prop
  | nil : HoldEntries [] []
  | blank {line : List Char} {lines : List (List Char)} {entries : List (String × Int)}
      (hline : IsTrimmed line []) (h : HoldEntries lines entries) :
      HoldEntries (line :: lines) entries
  | entry {line core : List Char} {lines : List (List Char)} {e : String × Int}
      {entries : List (String × Int)} (hline : IsTrimmed line core) (hentry : IsEntry core e)
      (h : HoldEntries lines entries) : HoldEntries (line :: lines) (e :: entries)

/-! ## Reading a line -/

/-- The entry on a line without blanks around it, unless the lines before it have its name. -/
def checkLine (seen : List String) (line : List Char) : Except LineError (String × Int) :=
  match readEntry line with
  | .error cause => .error cause
  | .ok e => if seen.contains e.1 then .error (.duplicateName e.1.toList) else .ok e

theorem isName_iff {name : List Char} :
    (!isSymbolicName name && !isLiteralName name) = false ↔ IsSymbolic name ∨ IsQuoted name := by
  rw [← isSymbolicName_iff, ← isLiteralName_iff]
  cases isSymbolicName name <;> cases isLiteralName name <;> simp

theorem toCode?_trim_eq_some_iff {code : List Char} {n : Int} :
    Decimal.toCode? (trim code) = some n ↔
      ∃ digits, IsTrimmed code digits ∧ Decimal.Denotes digits n ∧
        -2147483648 ≤ n ∧ n ≤ 2147483647 := by
  simp only [← trim_eq_iff, exists_eq_left', Decimal.toCode?_eq_some_iff]

theorem toCode?_trim_eq_none_iff {code : List Char} :
    Decimal.toCode? (trim code) = none ↔ ∀ digits n, IsTrimmed code digits →
      Decimal.Denotes digits n → ¬(-2147483648 ≤ n ∧ n ≤ 2147483647) := by
  simp only [Option.eq_none_iff_forall_ne_some, ne_eq, toCode?_trim_eq_some_iff, not_exists, not_and]
  exact forall_comm

theorem readEntry_append {name code : List Char} (hcode : '=' ∉ code)
    (hname : IsSymbolic name ∨ IsQuoted name) :
    readEntry (name ++ '=' :: code) =
      match Decimal.toCode? (trim code) with
      | none => .error (.invalidCode code)
      | some n => .ok (String.ofList name, n) := by
  have hvalid := isName_iff.2 hname
  rw [readEntry, splitLast?_append name hcode]
  exact if_neg (by simp [hvalid])

theorem readEntry_eq_ok_iff {e : String × Int} : readEntry line = .ok e ↔ IsEntry line e := by
  constructor
  · intro h
    rw [readEntry] at h
    split at h
    · cases h
    · rename_i name code hsplit
      obtain ⟨rfl, hcode⟩ := splitLast?_eq_some_iff.1 hsplit
      split_ifs at h with hname
      split at h
      · cases h
      · rename_i n hn
        cases h
        obtain ⟨digits, htrim, hdenotes, hrange⟩ := toCode?_trim_eq_some_iff.1 hn
        rw [Bool.not_eq_true] at hname
        refine ⟨code, digits, ?_, hcode, ?_, htrim, hdenotes, hrange⟩
        · rw [String.toList_ofList]
        · rw [String.toList_ofList]
          exact isName_iff.1 hname
  · rintro ⟨code, digits, rfl, hcode, hname, htrim, hdenotes, hrange⟩
    rw [readEntry_append hcode hname,
      toCode?_trim_eq_some_iff.2 ⟨digits, htrim, hdenotes, hrange⟩, String.ofList_toList]

theorem checkLine_eq_ok_iff {e : String × Int} :
    checkLine seen line = .ok e ↔ IsEntry line e ∧ e.1 ∉ seen := by
  rw [← readEntry_eq_ok_iff, checkLine]
  cases readEntry line with
  | error cause => simp
  | ok entry =>
      by_cases hseen : entry.1 ∈ seen
      · simp only [List.contains_iff_mem, hseen, if_true, Except.ok.injEq]
        constructor
        · rintro ⟨⟩
        · rintro ⟨rfl, hnot⟩
          exact absurd hseen hnot
      · simp only [List.contains_iff_mem, hseen, if_false, Except.ok.injEq]
        constructor
        · rintro rfl
          exact ⟨rfl, hseen⟩
        · exact And.left

theorem isMistake_of_readEntry_eq_error {cause : LineError} (h : readEntry line = .error cause) :
    IsMistake seen line cause := by
  rw [readEntry] at h
  split at h
  · rename_i hsplit
    cases h
    exact .missingCode (splitLast?_eq_none_iff.1 hsplit)
  · rename_i name code hsplit
    obtain ⟨rfl, hcode⟩ := splitLast?_eq_some_iff.1 hsplit
    split_ifs at h with hname
    · cases h
      refine .invalidName rfl hcode fun hvalid => ?_
      rw [isName_iff.2 hvalid] at hname
      cases hname
    · rw [Bool.not_eq_true, isName_iff] at hname
      split at h
      · rename_i hnone
        cases h
        exact .invalidCode rfl hcode hname (toCode?_trim_eq_none_iff.1 hnone)
      · cases h

theorem checkLine_eq_error_iff {cause : LineError} :
    checkLine seen line = .error cause ↔ IsMistake seen line cause := by
  constructor
  · intro h
    rw [checkLine] at h
    split at h
    · rename_i hread
      cases h
      exact isMistake_of_readEntry_eq_error hread
    · rename_i e hread
      split_ifs at h with hseen
      cases h
      exact .duplicateName (readEntry_eq_ok_iff.1 hread) (List.contains_iff_mem.1 hseen)
  · intro h
    rw [checkLine]
    cases h with
    | missingCode hline => rw [readEntry, splitLast?_eq_none_iff.2 hline]
    | @invalidName name code hline hcode hname =>
        rw [hline, readEntry, splitLast?_append name hcode]
        rw [← isName_iff, Bool.not_eq_false] at hname
        simp only [hname, if_true]
    | invalidCode hline hcode hname hnone =>
        rw [hline, readEntry_append hcode hname, toCode?_trim_eq_none_iff.2 hnone]
    | duplicateName hentry hseen =>
        simp only [readEntry_eq_ok_iff.2 hentry, List.contains_iff_mem, hseen, if_true]

theorem IsMistake.congr {seen' : List String} {cause : LineError}
    (hseen : ∀ name, name ∈ seen ↔ name ∈ seen') (h : IsMistake seen line cause) :
    IsMistake seen' line cause := by
  cases h with
  | missingCode hline => exact .missingCode hline
  | invalidName hline hcode hname => exact .invalidName hline hcode hname
  | invalidCode hline hcode hname hnone => exact .invalidCode hline hcode hname hnone
  | duplicateName hentry hmem => exact .duplicateName hentry ((hseen _).1 hmem)

/-! ## Reading all lines -/

theorem readLines_cons_of_blank (h : IsTrimmed line []) :
    readLines number seen (line :: lines) = readLines (number + 1) seen lines := by
  rw [readLines, trim_eq_iff.2 h]
  rfl

theorem readLines_cons_of_trimmed {core : List Char} (h : IsTrimmed line core) (hne : core ≠ []) :
    readLines number seen (line :: lines) =
      match checkLine seen core with
      | .error cause => .error ⟨number, cause⟩
      | .ok e => (readLines (number + 1) (e.1 :: seen) lines).map (e :: ·) := by
  rw [readLines, trim_eq_iff.2 h, checkLine]
  simp only [List.isEmpty_eq_false_iff.2 hne, Bool.false_eq_true, if_false]
  cases readEntry core with
  | error cause => rfl
  | ok e =>
      by_cases hseen : seen.contains e.1
      · simp only [hseen, if_true]
      · simp only [hseen, Bool.false_eq_true, if_false]
        cases readLines (number + 1) (e.1 :: seen) lines <;> rfl

theorem IsEntry.ne_nil {e : String × Int} (h : IsEntry line e) : line ≠ [] := by
  obtain ⟨code, digits, rfl, -⟩ := h
  simp

/-- The names differ from each other and from those `seen` before. -/
def AreNew (seen : List String) (entries : List (String × Int)) : Prop :=
  (entries.map Prod.fst).Nodup ∧ ∀ e ∈ entries, e.1 ∉ seen

theorem areNew_nil (seen : List String) : AreNew seen [] :=
  ⟨List.nodup_nil, by simp⟩

theorem areNew_of_nodup {entries : List (String × Int)} (h : (entries.map Prod.fst).Nodup) :
    AreNew [] entries :=
  ⟨h, by simp⟩

theorem areNew_cons_iff {e : String × Int} {entries : List (String × Int)} :
    AreNew seen (e :: entries) ↔ e.1 ∉ seen ∧ AreNew (e.1 :: seen) entries := by
  rw [AreNew, AreNew, List.map_cons, List.nodup_cons, List.forall_mem_cons]
  constructor
  · rintro ⟨⟨hfirst, hnodup⟩, hnew, hseen⟩
    refine ⟨hnew, hnodup, fun x hx hmem => ?_⟩
    rcases List.mem_cons.1 hmem with heq | hold
    · exact hfirst (heq ▸ List.mem_map_of_mem hx)
    · exact hseen x hx hold
  · rintro ⟨hnew, hnodup, hseen⟩
    refine ⟨⟨fun hmem => ?_, hnodup⟩, hnew, fun x hx hmem => ?_⟩
    · obtain ⟨x, hx, heq⟩ := List.mem_map.1 hmem
      exact hseen x hx (heq ▸ List.mem_cons_self)
    · exact hseen x hx (List.mem_cons_of_mem _ hmem)

/-- Lines that hold entries with new names are read, and then the lines after them. -/
theorem readLines_append {entries : List (String × Int)} (h : HoldEntries lines entries)
    (hnew : AreNew seen entries) (after : List (List Char)) :
    readLines number seen (lines ++ after) =
      (readLines (number + lines.length) ((entries.map Prod.fst).reverse ++ seen) after).map
        (entries ++ ·) := by
  induction h generalizing number seen with
  | nil =>
      rw [List.nil_append, List.map_nil, List.reverse_nil, List.nil_append]
      cases readLines number seen after <;> rfl
  | @blank line lines entries hline _ ih =>
      have hlength : number + 1 + lines.length = number + (line :: lines).length := by
        rw [List.length_cons]
        omega
      rw [List.cons_append, readLines_cons_of_blank hline, ih hnew, hlength]
  | @entry line core lines e entries hline hentry _ ih =>
      obtain ⟨hfirst, hrest⟩ := areNew_cons_iff.1 hnew
      have hlength : number + 1 + lines.length = number + (line :: lines).length := by
        rw [List.length_cons]
        omega
      have hnames : (entries.map Prod.fst).reverse ++ e.1 :: seen =
          ((e :: entries).map Prod.fst).reverse ++ seen := by
        rw [List.map_cons, List.reverse_cons, List.append_assoc, List.singleton_append]
      rw [List.cons_append, readLines_cons_of_trimmed hline hentry.ne_nil,
        checkLine_eq_ok_iff.2 ⟨hentry, hfirst⟩]
      simp only [ih hrest, hlength, hnames]
      cases readLines (number + (line :: lines).length)
        (((e :: entries).map Prod.fst).reverse ++ seen) after <;> rfl

/-- The first line that is wrong, behind lines that hold entries with new names. -/
def FirstMistake (number : Nat) (seen : List String) (lines : List (List Char)) (e : TokensError) :
    Prop :=
  ∃ before line core after entries, lines = before ++ line :: after ∧ HoldEntries before entries ∧
    AreNew seen entries ∧ IsTrimmed line core ∧ core ≠ [] ∧
    IsMistake ((entries.map Prod.fst).reverse ++ seen) core e.cause ∧ e.line = number + before.length

theorem firstMistake_cons_of_blank {e : TokensError} (hline : IsTrimmed line [])
    (h : FirstMistake (number + 1) seen lines e) : FirstMistake number seen (line :: lines) e := by
  obtain ⟨before, wrong, core, after, entries, rfl, hhold, hnew, htrim, hne, hmistake, hnumber⟩ := h
  refine ⟨line :: before, wrong, core, after, entries, rfl, .blank hline hhold, hnew, htrim, hne,
    hmistake, ?_⟩
  rw [hnumber, List.length_cons]
  omega

theorem firstMistake_cons_of_isEntry {e : TokensError} {core : List Char} {x : String × Int}
    (hline : IsTrimmed line core) (hentry : IsEntry core x) (hfirst : x.1 ∉ seen)
    (h : FirstMistake (number + 1) (x.1 :: seen) lines e) :
    FirstMistake number seen (line :: lines) e := by
  obtain ⟨before, wrong, core', after, entries, rfl, hhold, hnew, htrim, hne, hmistake, hnumber⟩ := h
  refine ⟨line :: before, wrong, core', after, x :: entries, rfl, .entry hline hentry hhold,
    areNew_cons_iff.2 ⟨hfirst, hnew⟩, htrim, hne, ?_, ?_⟩
  · rwa [List.map_cons, List.reverse_cons, List.append_assoc, List.singleton_append]
  · rw [hnumber, List.length_cons]
    omega

/-- Lines either all hold entries with new names, or there is a first line that is wrong. -/
theorem exists_holdEntries_or_firstMistake (number : Nat) (seen : List String)
    (lines : List (List Char)) :
    (∃ entries, HoldEntries lines entries ∧ AreNew seen entries) ∨
      ∃ e, FirstMistake number seen lines e := by
  induction lines generalizing number seen with
  | nil => exact Or.inl ⟨[], .nil, areNew_nil seen⟩
  | cons line lines ih =>
      have hcore := trim_eq_iff.1 (rfl : trim line = trim line)
      by_cases hblank : trim line = []
      · rw [hblank] at hcore
        rcases ih (number + 1) seen with ⟨entries, hhold, hnew⟩ | ⟨e, he⟩
        · exact Or.inl ⟨entries, .blank hcore hhold, hnew⟩
        · exact Or.inr ⟨e, firstMistake_cons_of_blank hcore he⟩
      · cases hcheck : checkLine seen (trim line) with
        | error cause =>
            exact Or.inr ⟨⟨number, cause⟩, [], line, trim line, lines, [], rfl, .nil,
              areNew_nil seen, hcore, hblank, checkLine_eq_error_iff.1 hcheck, rfl⟩
        | ok x =>
            obtain ⟨hentry, hfirst⟩ := checkLine_eq_ok_iff.1 hcheck
            rcases ih (number + 1) (x.1 :: seen) with ⟨entries, hhold, hnew⟩ | ⟨e, he⟩
            · exact Or.inl ⟨x :: entries, .entry hcore hentry hhold,
                areNew_cons_iff.2 ⟨hfirst, hnew⟩⟩
            · exact Or.inr ⟨e, firstMistake_cons_of_isEntry hcore hentry hfirst he⟩

theorem readLines_of_holdEntries {entries : List (String × Int)} (h : HoldEntries lines entries)
    (hnew : AreNew seen entries) : readLines number seen lines = .ok entries := by
  have happend : readLines number seen (lines ++ []) = _ := readLines_append h hnew []
  rw [List.append_nil] at happend
  rw [happend, readLines]
  exact congrArg Except.ok (List.append_nil _)

theorem readLines_of_firstMistake {e : TokensError} (h : FirstMistake number seen lines e) :
    readLines number seen lines = .error e := by
  obtain ⟨before, line, core, after, entries, rfl, hhold, hnew, htrim, hne, hmistake, hnumber⟩ := h
  rw [readLines_append hhold hnew, readLines_cons_of_trimmed htrim hne,
    checkLine_eq_error_iff.2 hmistake, ← hnumber]
  rfl

theorem readLines_eq_ok_iff {entries : List (String × Int)} :
    readLines number seen lines = .ok entries ↔ HoldEntries lines entries ∧ AreNew seen entries := by
  refine ⟨fun h => ?_, fun h => readLines_of_holdEntries h.1 h.2⟩
  rcases exists_holdEntries_or_firstMistake number seen lines with ⟨entries', h'⟩ | ⟨e, he⟩
  · rw [readLines_of_holdEntries h'.1 h'.2] at h
    exact Except.ok.inj h ▸ h'
  · rw [readLines_of_firstMistake he] at h
    cases h

theorem readLines_eq_error_iff {e : TokensError} :
    readLines number seen lines = .error e ↔ FirstMistake number seen lines e := by
  refine ⟨fun h => ?_, readLines_of_firstMistake⟩
  rcases exists_holdEntries_or_firstMistake number seen lines with ⟨entries, h'⟩ | ⟨e', he⟩
  · rw [readLines_of_holdEntries h'.1 h'.2] at h
    cases h
  · rw [readLines_of_firstMistake he] at h
    exact Except.error.inj h ▸ he

/-! ## Reading a text -/

theorem message_eq (e : TokensError) :
    e.message = "line " ++ toString e.line ++ ": " ++ e.cause.message := by
  rw [TokensError.message, Decimal.ofList_ofNat]

theorem ofTokens_eq_ok_iff {text : String} {v : Vocabulary} :
    ofTokens text = .ok v ↔ v.rules = [] ∧ readLines 1 [] (Text.lines text.toList) = .ok v.entries := by
  rw [ofTokens]
  cases readLines 1 [] (Text.lines text.toList) with
  | error e => simp
  | ok entries =>
      rw [Except.ok.injEq, Except.ok.injEq]
      constructor
      · rintro rfl
        exact ⟨rfl, rfl⟩
      · rintro ⟨hrules, rfl⟩
        rw [← hrules]

theorem ofTokens_eq_error_iff {text : String} {e : TokensError} :
    ofTokens text = .error e ↔ readLines 1 [] (Text.lines text.toList) = .error e := by
  rw [ofTokens]
  cases readLines 1 [] (Text.lines text.toList) <;> simp

/-- A text is read if and only if its lines hold entries with different names, and these are the
entries that are read.  Otherwise the error is about the first line that is wrong. -/
theorem ofTokens_accepts_grammar (text : String) :
    (∀ v, ofTokens text = .ok v ↔ v.rules = [] ∧ (v.entries.map Prod.fst).Nodup ∧
      ∃ lines, IsLines text.toList lines ∧ HoldEntries lines v.entries) ∧
    (∀ e, ofTokens text = .error e ↔
      ∃ before line core after entries, IsLines text.toList (before ++ line :: after) ∧
        HoldEntries before entries ∧ (entries.map Prod.fst).Nodup ∧ IsTrimmed line core ∧
        core ≠ [] ∧ IsMistake (entries.map Prod.fst) core e.cause ∧
        e.line = before.length + 1) ∧
    ∀ e : TokensError, e.message = "line " ++ toString e.line ++ ": " ++ e.cause.message := by
  refine ⟨fun v => ?_, fun e => ?_, message_eq⟩
  · rw [ofTokens_eq_ok_iff, readLines_eq_ok_iff]
    constructor
    · rintro ⟨hrules, hhold, hnew⟩
      exact ⟨hrules, hnew.1, _, isLines_lines _, hhold⟩
    · rintro ⟨hrules, hnodup, lines, hlines, hhold⟩
      rw [lines_eq_iff.2 hlines]
      exact ⟨hrules, hhold, areNew_of_nodup hnodup⟩
  · have hnames : ∀ (entries : List (String × Int)) (name : String),
        name ∈ (entries.map Prod.fst).reverse ++ [] ↔ name ∈ entries.map Prod.fst := by
      intro entries name
      rw [List.append_nil, List.mem_reverse]
    rw [ofTokens_eq_error_iff, readLines_eq_error_iff]
    constructor
    · rintro ⟨before, line, core, after, entries, hsplit, hhold, hnew, htrim, hne, hmistake,
        hnumber⟩
      exact ⟨before, line, core, after, entries, hsplit ▸ isLines_lines _, hhold, hnew.1, htrim, hne,
        hmistake.congr (hnames entries), hnumber.trans (Nat.add_comm _ _)⟩
    · rintro ⟨before, line, core, after, entries, hlines, hhold, hnodup, htrim, hne, hmistake,
        hnumber⟩
      rw [lines_eq_iff.2 hlines]
      exact ⟨before, line, core, after, entries, rfl, hhold, areNew_of_nodup hnodup, htrim, hne,
        hmistake.congr fun name => (hnames entries name).symm, hnumber.trans (Nat.add_comm _ _)⟩

end Vocabulary

end TokenHighlight
