import TokenHighlight.Proofs.Program.Run
import TokenHighlight.Proofs.Text.Lines
import TokenHighlight.Proofs.Vocabulary.Resolve

/-!
# Classifying kinds

The kinds are looked up one after the other and each has a line of its own
(`Table.classifyAll_append`).  What is said on the line about an element, its code or the name of
its grammar rule, names the element again (`Table.fedBack_elementLine`), so it can be fed back and
is printed again (`Arguments.run_classify_fedBack`).
-/

namespace TokenHighlight

open Text (HasLines)

/-! ## Lines -/

/-- The tag of an element in words. -/
def tagOrNone (tag? : Option Tag) : String := (tag?.map Tag.name).getD "none"

namespace Table

variable {t : Table} {v : Vocabulary} {kinds rest : List String} {es : List Element}

/-- The line about an element. -/
def elementLine (t : Table) (v : Vocabulary) (e : Element) : String :=
  v.describe e ++ ": " ++ tagOrNone (t.classify e)

theorem describe_eq (t : Table) (v : Vocabulary) (e : Element) :
    t.describe v e = t.elementLine v e ++ "\n" := rfl

/-- The kinds stand for the elements. -/
def Resolves (v : Vocabulary) : List String → List Element → Prop :=
  List.Forall₂ fun kind e => v.resolve kind = .ok e

/-- Kinds that stand for elements are printed in order, and then come the others. -/
theorem classifyAll_append (h : Resolves v kinds es) (rest : List String) :
    t.classifyAll v (kinds ++ rest) =
      (String.join (es.map fun e => t.elementLine v e ++ "\n") ++ (t.classifyAll v rest).1,
        (t.classifyAll v rest).2) := by
  induction h with
  | nil => simp
  | cons hkind _ ih =>
      rw [List.cons_append, classifyAll, hkind]
      simp only [ih, List.map_cons, String.join_cons, describe_eq, String.append_assoc]

theorem classifyAll_of_resolves (h : Resolves v kinds es) :
    t.classifyAll v kinds =
      (String.join (es.map fun e => t.elementLine v e ++ "\n"), .success) := by
  have happend := classifyAll_append (t := t) h []
  rw [List.append_nil] at happend
  rw [happend, classifyAll, String.append_empty]

theorem Resolves.exists_named (h : Resolves .builtin kinds es) :
    ∀ e ∈ es, ∃ name, Vocabulary.Named e name := by
  induction h with
  | nil => simp
  | cons hkind _ ih =>
      rw [List.forall_mem_cons]
      exact ⟨Vocabulary.Named.of_resolve hkind, ih⟩

theorem exists_resolves_of_exit (h : (t.classifyAll v kinds).2.exit = 0) :
    ∃ es, Resolves v kinds es := by
  induction kinds with
  | nil => exact ⟨[], .nil⟩
  | cons kind kinds ih =>
      rw [classifyAll] at h
      cases hkind : v.resolve kind with
      | error e =>
          rw [hkind] at h
          cases h
      | ok e =>
          rw [hkind] at h
          obtain ⟨es, hes⟩ := ih h
          exact ⟨e :: es, .cons hkind hes⟩

end Table

/-! ## Feeding back -/

/-- Reads what can be fed back from a line: the name of a grammar rule, or else the code in
parentheses. -/
def readBack (cs : List Char) : List Char :=
  if "rule ".toList.isPrefixOf cs then (cs.drop 5).takeWhile (· != ' ')
  else ((cs.dropWhile (· != '(')).drop 1).takeWhile (· != ')')

/-- What a line offers to be fed back. -/
def fedBack (line : String) : String := String.ofList (readBack line.toList)

theorem readBack_rule {name : List Char} (hname : ' ' ∉ name) (rest : List Char) :
    readBack ("rule ".toList ++ (name ++ ' ' :: rest)) = name := by
  have hnot : ∀ c ∈ name, (c != ' ') = true := by
    rintro c hc
    simpa using ne_of_mem_of_not_mem hc hname
  simp [readBack, List.takeWhile_append_of_pos hnot]

theorem readBack_token {c : Char} {head code : List Char} (hhead : '(' ∉ c :: head)
    (hfirst : c ≠ 'r') (hcode : ')' ∉ code) (rest : List Char) :
    readBack (c :: head ++ '(' :: (code ++ ')' :: rest)) = code := by
  have hbefore : ∀ d ∈ c :: head, (d != '(') = true := by
    rintro d hd
    simpa using ne_of_mem_of_not_mem hd hhead
  have hnot : ∀ d ∈ code, (d != ')') = true := by
    rintro d hd
    simpa using ne_of_mem_of_not_mem hd hcode
  have hprefix : "rule ".toList.isPrefixOf (c :: head ++ '(' :: (code ++ ')' :: rest)) = false := by
    simp [List.isPrefixOf, hfirst.symm]
  rw [readBack, hprefix, List.dropWhile_append_of_pos hbefore]
  simp [List.takeWhile_append_of_pos hnot]

/-- The word for a code: the name of its kind, if there is one. -/
def codeWord (n : Int) : String := ((Kind.ofCode? n).map Kind.name).getD "unknown token"

theorem codeWord_spec (n : Int) :
    '(' ∉ (codeWord n).toList ∧ '\n' ∉ (codeWord n).toList ∧
      ∃ c cs, (codeWord n).toList = c :: cs ∧ c ≠ 'r' := by
  rw [codeWord]
  cases Kind.ofCode? n with
  | none => exact ⟨by decide, by decide, 'u', "nknown token".toList, by decide, by decide⟩
  | some k =>
      have hsymbolic := k.isSymbolic_name
      -- the line of a kind is not taken for one about a rule
      have hfirst : k.name.toList.head? ≠ some 'r' := by
        have hall : ∀ k ∈ Kind.all, k.name.toList.head? ≠ some 'r' := by decide +kernel
        exact hall k k.mem_all
      obtain ⟨c, cs, heq, -⟩ := id hsymbolic
      refine ⟨hsymbolic.not_mem (by decide), hsymbolic.feed_not_mem, c, cs, heq, ?_⟩
      rintro rfl
      exact hfirst (by rw [heq]; rfl)

namespace Table

variable {t : Table} {e : Element} {name : String}

theorem toList_elementLine_token (t : Table) (v : Vocabulary) (n : Int) :
    (t.elementLine v (.token n)).toList = ((codeWord n).toList ++ [' ']) ++ '(' ::
      (Decimal.ofInt n ++ ')' :: (": ".toList ++ (tagOrNone (t.classify (.token n))).toList)) := by
  rw [elementLine, Vocabulary.describe, codeWord]
  cases Kind.ofCode? n <;> simp

theorem toList_elementLine_rule {i : Nat} (h : Vocabulary.builtin.ruleName? i = some name) :
    (t.elementLine .builtin (.rule i)).toList = "rule ".toList ++ (name.toList ++ ' ' ::
      ('(' :: (Decimal.ofNat i ++ "): none".toList))) := by
  have hnone : tagOrNone (t.classify (.rule i)) = "none" := rfl
  rw [elementLine, hnone, Vocabulary.describe, h]
  simp

theorem feed_not_mem_tagOrNone (tag? : Option Tag) : '\n' ∉ (tagOrNone tag?).toList := by
  cases tag? with
  | none => decide
  | some tag => cases tag <;> decide

/-- The line about an element names it. -/
theorem fedBack_elementLine (t : Table) (h : Vocabulary.Named e name) :
    fedBack (t.elementLine .builtin e) = name := by
  cases h with
  | @token n hn =>
      obtain ⟨hopen, -, c, cs, heq, hfirst⟩ := codeWord_spec n
      have hhead : '(' ∉ c :: (cs ++ [' ']) := by
        rw [← List.cons_append, ← heq]
        simpa using hopen
      have hclose : ')' ∉ Decimal.ofInt n := Decimal.not_mem_ofInt n (by decide)
      rw [fedBack, toList_elementLine_token, heq, List.cons_append,
        readBack_token hhead hfirst hclose]
  | @rule i _ h =>
      have hsymbolic := Vocabulary.isSymbolic_of_mem_grammarRules (List.mem_of_getElem? h)
      have hspace : ' ' ∉ name.toList := hsymbolic.not_mem (by decide)
      rw [fedBack, toList_elementLine_rule h, readBack_rule hspace, String.ofList_toList]

theorem feed_not_mem_elementLine (t : Table) (h : Vocabulary.Named e name) :
    '\n' ∉ (t.elementLine .builtin e).toList := by
  cases h with
  | @token n hn =>
      obtain ⟨-, hfeed, -⟩ := codeWord_spec n
      have hcode : '\n' ∉ Decimal.ofInt n := Decimal.not_mem_ofInt n (by decide)
      rw [toList_elementLine_token]
      simp [hfeed, hcode, feed_not_mem_tagOrNone]
  | @rule i _ h =>
      have hsymbolic := Vocabulary.isSymbolic_of_mem_grammarRules (List.mem_of_getElem? h)
      have hcode : '\n' ∉ Decimal.ofNat i := Decimal.not_mem_ofInt i (by decide)
      rw [toList_elementLine_rule h]
      simp [hsymbolic.feed_not_mem, hcode]

theorem Resolves.hasLines {kinds : List String} {es : List Element} (h : Resolves .builtin kinds es)
    (t : Table) : HasLines (es.map (t.elementLine .builtin))
      (String.join (es.map fun e => t.elementLine .builtin e ++ "\n")) := by
  refine ⟨by rw [List.map_map]; rfl, fun line hline => ?_⟩
  obtain ⟨e, he, rfl⟩ := List.mem_map.1 hline
  obtain ⟨name, hname⟩ := h.exists_named e he
  exact feed_not_mem_elementLine t hname

end Table

/-! ## Runs -/

/-- The configuration is accepted and makes the table. -/
def Files.Configures (files : Files) (config? : Option String) (t : Table) : Prop :=
  ∃ events, loadTable files.read config? = .ok (t, events)

namespace Arguments

variable {a : Arguments} {files : Files} {t : Table} {kinds : List String} {es : List Element}

theorem plan_classify (hcommand : a.command = .classify kinds) (read : FileReader) :
    a.plan read = classifyPlan read a.config? kinds := by
  rw [plan, hcommand]
  rfl

theorem run_classify (h : files.Configures a.config? t) (hcommand : a.command = .classify kinds) :
    (a.run files).exit = (t.classifyAll .builtin kinds).2.exit ∧
      (a.run files).stdout = (t.classifyAll .builtin kinds).1 := by
  obtain ⟨events, hload⟩ := h
  rw [run_eq, plan_classify hcommand, classifyPlan, hload]
  exact ⟨rfl, rfl⟩

theorem exists_configures_of_classify (hcommand : a.command = .classify kinds)
    (hexit : (a.run files).exit = 0) : ∃ t, files.Configures a.config? t := by
  cases hload : loadTable files.read a.config? with
  | ok loaded => exact ⟨loaded.1, loaded.2, hload⟩
  | error f =>
      rw [run_eq, plan_classify hcommand, classifyPlan, hload] at hexit
      cases hexit

theorem run_classify_of_resolves (h : files.Configures a.config? t)
    (hcommand : a.command = .classify kinds) (hes : Table.Resolves .builtin kinds es) :
    (a.run files).exit = 0 ∧
      HasLines (es.map (t.elementLine .builtin)) (a.run files).stdout := by
  obtain ⟨hexit, hstdout⟩ := run_classify h hcommand
  rw [Table.classifyAll_of_resolves hes] at hexit hstdout
  rw [hstdout]
  exact ⟨hexit, hes.hasLines t⟩

theorem run_classify_fedBack (hcommand : a.command = .classify kinds)
    (hexit : (a.run files).exit = 0) :
    ∃ lines, HasLines lines (a.run files).stdout ∧ lines.length = kinds.length ∧
      ∀ b : Arguments, b.config? = a.config? → b.command = .classify (lines.map fedBack) →
        (b.run files).exit = 0 ∧ (b.run files).stdout = (a.run files).stdout := by
  obtain ⟨t, ht⟩ := exists_configures_of_classify hcommand hexit
  rw [(run_classify ht hcommand).1] at hexit
  obtain ⟨es, hes⟩ := Table.exists_resolves_of_exit hexit
  have hlines := (run_classify_of_resolves ht hcommand hes).2
  refine ⟨_, hlines, by rw [List.length_map, hes.length_eq], fun b hconfig hb => ?_⟩
  have hback : Table.Resolves .builtin ((es.map (t.elementLine .builtin)).map fedBack) es := by
    rw [List.map_map, Table.Resolves, List.forall₂_map_left_iff, List.forall₂_same]
    intro e he
    obtain ⟨name, hname⟩ := hes.exists_named e he
    rw [Function.comp_apply, Table.fedBack_elementLine t hname]
    exact hname.resolve_eq
  have hagain := run_classify_of_resolves (hconfig ▸ ht) hb hback
  exact ⟨hagain.1, hagain.2.eq_join.trans hlines.eq_join.symm⟩

end Arguments

end TokenHighlight
