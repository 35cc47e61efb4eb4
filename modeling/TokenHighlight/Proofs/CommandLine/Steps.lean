import TokenHighlight.CommandLine.Parser
import TokenHighlight.CommandLine.Printer
import TokenHighlight.Proofs.NameMap

/-!
# Steps through the arguments

`Steps level mode s args mode' s'` says that the scanner of a level gets through the arguments one
by one, without stopping.  Options that are written with their values, flags and operands are all
steps of this kind (`Steps.written`, `Steps.verbose`, `Steps.operands`), and both scanners follow
the steps (`Steps.scanCommand_append`, `Steps.scanTop_append`).
-/

namespace TokenHighlight

namespace CommandLine

variable {level : Level} {mode mode' mode'' : Mode} {s s' s'' : Scan} {args args' : List String}

/-- The scanner gets from a mode and what has been read before to a mode and what has been read
then. -/
inductive Steps (level : Level) : Mode → Scan → List String → Mode → Scan → Prop
  | nil {mode : Mode} {s : Scan} : Steps level mode s [] mode s
  | cons {mode mode' mode'' : Mode} {s s' s'' : Scan} {arg : String} {args : List String}
      (hstep : step level mode s arg = .ok (s', mode'))
      (h : Steps level mode' s' args mode'' s'') : Steps level mode s (arg :: args) mode'' s''

theorem Steps.append (h : Steps level mode s args mode' s')
    (h' : Steps level mode' s' args' mode'' s'') :
    Steps level mode s (args ++ args') mode'' s'' := by
  induction h with
  | nil => exact h'
  | cons hstep _ ih => exact .cons hstep (ih h')

theorem Steps.scanCommand_append (h : Steps level mode s args mode' s') (rest : List String) :
    scanCommand level mode s (args ++ rest) = scanCommand level mode' s' rest := by
  induction h with
  | nil => rfl
  | cons hstep _ ih =>
      rw [List.cons_append, scanCommand, hstep]
      exact ih

theorem Steps.scanCommand_eq (h : Steps level mode s args mode' s') :
    scanCommand level mode s args = s'.settle level := by
  have happend := h.scanCommand_append []
  rwa [List.append_nil, scanCommand] at happend

/-! ## Arguments that begin with a dash -/

/-- Neither a command nor an operand of one is written like this, unless it stands behind other
operands. -/
def IsDashed (arg : String) : Prop := arg.toList.head? = some '-'

theorem IsDashed.ne_help {arg : String} (h : IsDashed arg) : arg ≠ "help" := by
  rintro rfl
  revert h
  unfold IsDashed
  decide

theorem IsDashed.ofName?_eq_none {arg : String} (h : IsDashed arg) : Level.ofName? arg = none := by
  have hne : ∀ name : String, name.toList.head? ≠ some '-' → arg ≠ name := by
    rintro name hname rfl
    exact hname h
  unfold Level.ofName?
  rw [if_neg, if_neg (hne _ (by decide)), if_neg (hne _ (by decide)), if_neg]
  · rw [not_or]
    exact ⟨hne _ (by decide), hne _ (by decide)⟩
  · rw [not_or]
    exact ⟨hne _ (by decide), hne _ (by decide)⟩

/-- In front of the command no argument with a dash is taken for the command. -/
theorem Steps.scanTop_append (h : Steps .top mode s args mode' s')
    (hargs : ∀ arg ∈ args, IsDashed arg) (rest : List String) :
    scanTop mode s (args ++ rest) = scanTop mode' s' rest := by
  induction h with
  | nil => rfl
  | cons hstep _ ih =>
      rw [List.forall_mem_cons] at hargs
      have hhelp := hargs.1.ne_help
      rw [List.cons_append, scanTop, if_neg (fun hboth => hhelp hboth.2),
        hargs.1.ofName?_eq_none, ite_self, hstep]
      exact ih hargs.2

/-! ## Options with their values -/

/-- An option and its value in one argument. -/
def Switch.written (o : Switch) (value : String) : String := "--" ++ o.long ++ "=" ++ value

theorem Switch.toList_written (o : Switch) (value : String) :
    (o.written value).toList = '-' :: '-' :: (o.long.toList ++ '=' :: value.toList) := by
  simp [written]

theorem Switch.isDashed_written (o : Switch) (value : String) : IsDashed (o.written value) := by
  rw [IsDashed, o.toList_written]
  rfl

theorem Switch.equals_not_mem_long (o : Switch) : '=' ∉ o.long.toList := by
  cases o <;> decide

theorem splitLong_append {name : List Char} (h : '=' ∉ name) (value : List Char) :
    splitLong (name ++ '=' :: value) = (name, some value) := by
  induction name with
  | nil => rfl
  | cons c name ih =>
      rw [List.mem_cons, not_or] at h
      rw [List.cons_append, splitLong, if_neg (Ne.symm h.1), ih h.2]

theorem Level.ofLong?_long {o : Switch} (h : o ∈ level.switches) :
    level.ofLong? o.long.toList = some o := by
  cases level <;> cases o <;> first | rfl | exact absurd h (by decide)

theorem takeOption_written {o : Switch} (ho : o ∈ level.switches) (hvalue : o.takesValue)
    (s : Scan) (value : String) : takeOption level s (o.written value) =
      (s.attach level o value).map fun s => .option s .ready := by
  have hsplit := splitLong_append o.equals_not_mem_long value.toList
  rw [takeOption, o.toList_written]
  show takeLong level s (o.long.toList ++ '=' :: value.toList) = _
  rw [takeLong, hsplit]
  simp only [Level.ofLong?_long ho, hvalue, String.ofList_toList]

theorem step_written {o : Switch} (ho : o ∈ level.switches) (hvalue : o.takesValue) (s : Scan)
    (value : String) : step level .ready s (o.written value) =
      (s.attach level o value).map fun s => (s, .ready) := by
  have hne : o.written value ≠ "--" := by
    intro heq
    have hlength := congrArg (fun arg : String => arg.toList.length) heq
    simp [o.toList_written] at hlength
  rw [step, if_neg hne, takeOption_written ho hvalue]
  cases s.attach level o value <;> rfl

theorem Scan.settle_of_pending?_eq_none (h : s.pending? = none) : s.settle level = .ok s := by
  rw [settle, h]

theorem Scan.attach_eq_ok {o : Switch} {value : String} (hpending : s.pending? = none)
    (hnew : s.value? o = none) (haccepts : level.accepts o value) :
    s.attach level o value = .ok { s with values := s.values ++ [(o, value)] } := by
  rw [attach, settle_of_pending?_eq_none hpending]
  simp [record, hnew, haccepts]

theorem Scan.value?_eq_none_iff {o : Switch} : s.value? o = none ↔ o ∉ s.values.map Prod.fst :=
  lookup_eq_none_iff_not_mem

/-- An option with its value belongs to a level. -/
structure Level.Takes (level : Level) (e : Switch × String) : Prop where
  mem : e.1 ∈ level.switches
  takesValue : e.1.takesValue
  accepts : level.accepts e.1 e.2

/-- Different options of a level are recorded in their order. -/
theorem Steps.written (os : List (Switch × String)) (hpending : s.pending? = none)
    (htakes : ∀ e ∈ os, level.Takes e) (hnodup : ((s.values ++ os).map Prod.fst).Nodup) :
    Steps level .ready s (os.map fun e => e.1.written e.2) .ready
      { s with values := s.values ++ os } := by
  induction os generalizing s with
  | nil =>
      rw [List.append_nil]
      exact .nil
  | cons e os ih =>
      rw [List.forall_mem_cons] at htakes
      obtain ⟨⟨hmem, hvalue, haccepts⟩, htakes⟩ := htakes
      -- an option that has its value already would be refused
      have hnew : s.value? e.1 = none := by
        rw [Scan.value?_eq_none_iff]
        rw [List.map_append, List.map_cons, List.nodup_append] at hnodup
        intro hold
        exact hnodup.2.2 _ hold _ List.mem_cons_self rfl
      have hstep : step level .ready s (e.1.written e.2) =
          .ok ({ s with values := s.values ++ [e] }, .ready) := by
        rw [step_written hmem hvalue, Scan.attach_eq_ok hpending hnew haccepts]
        rfl
      have hrest := ih (s := { s with values := s.values ++ [e] }) hpending htakes
        (by rwa [List.append_assoc])
      rw [List.append_assoc] at hrest
      exact .cons hstep hrest

/-! ## Flags -/

theorem step_verbose (hpending : s.pending? = none) :
    step .top .ready s "-v" = .ok ({ s with verbosity := min 255 (s.verbosity + 1) }, .ready) := by
  have hflag : s.flag .top .verbosity = .ok { s with verbosity := min 255 (s.verbosity + 1) } := by
    rw [Scan.flag, Scan.settle_of_pending?_eq_none hpending]
  have htake : takeOption .top s "-v" = takeShort .top s ['v'] := rfl
  have hletter : Level.top.ofShort? 'v' = some .verbosity := rfl
  rw [step, if_neg (by decide), htake, takeShort, hletter]
  simp only [Switch.takesValue, Bool.false_eq_true, if_false, hflag, takeShort]

/-- Asking for more logging counts up to 255. -/
theorem Steps.verbose {n : Nat} (hpending : s.pending? = none) (hn : s.verbosity + n ≤ 255) :
    Steps .top .ready s (List.replicate n "-v") .ready { s with verbosity := s.verbosity + n } := by
  induction n generalizing s with
  | zero => exact .nil
  | succ n ih =>
      have hone : min 255 (s.verbosity + 1) = s.verbosity + 1 := by omega
      have hstep := step_verbose hpending
      rw [hone] at hstep
      have hrest := ih (s := { s with verbosity := s.verbosity + 1 }) hpending
        (by dsimp only; omega)
      have hsum : s.verbosity + 1 + n = s.verbosity + (n + 1) := by omega
      rw [← hsum]
      exact .cons hstep hrest

/-! ## Operands -/

/-- In these modes every argument is an operand, whatever it looks like. -/
inductive Mode.IsVerbatim : Level → Mode → Prop
  | trailing (level : Level) : IsVerbatim level .trailing
  | listing : IsVerbatim .classify .listing

theorem step_of_isVerbatim (h : mode.IsVerbatim .classify) (s : Scan) (arg : String) :
    step .classify mode s arg = (s.operand .classify arg).map fun s => (s, mode) := by
  cases h <;> rfl

theorem Scan.operand_of_pending?_eq_none (hpending : s.pending? = none) (arg : String) :
    s.operand level arg = .ok { s with pending? := some (.operands [arg]) } := by
  rw [operand, hpending]
  simp only [settle_of_pending?_eq_none hpending]

theorem Scan.operand_operands (values : List String) (arg : String) :
    ({ s with pending? := some (.operands values) } : Scan).operand level arg =
      .ok { s with pending? := some (.operands (values ++ [arg])) } := rfl

/-- Operands are collected as they are. -/
theorem Steps.operands (values kinds : List String) (h : mode.IsVerbatim .classify) :
    Steps .classify mode { s with pending? := some (.operands values) } kinds mode
      { s with pending? := some (.operands (values ++ kinds)) } := by
  induction kinds generalizing values with
  | nil =>
      rw [List.append_nil]
      exact .nil
  | cons kind kinds ih =>
      have hstep : step .classify mode { s with pending? := some (.operands values) } kind =
          .ok ({ s with pending? := some (.operands (values ++ [kind])) }, mode) := by
        rw [step_of_isVerbatim h, Scan.operand_operands]
        rfl
      have hrest := ih (values ++ [kind])
      rw [List.append_assoc] at hrest
      exact .cons hstep hrest

/-- Two dashes end the options. -/
theorem step_dashes (level : Level) (s : Scan) : step level .ready s "--" = .ok (s, .trailing) := by
  rw [step, if_pos rfl]

/-- A kind without a dash starts the operands, even where options could stand. -/
theorem step_of_not_isDashed {kind : String} (hpending : s.pending? = none)
    (h : ¬IsDashed kind) : step .classify .ready s kind =
      .ok ({ s with pending? := some (.operands [kind]) }, .listing) := by
  have hdash : ∀ cs, kind.toList ≠ '-' :: cs := by
    rintro cs hcs
    exact h (by rw [IsDashed, hcs]; rfl)
  have hne : kind ≠ "--" := by
    rintro rfl
    exact hdash ['-'] rfl
  have hword : takeOption .classify s kind = .ok .word := by
    rw [takeOption]
    split
    · rename_i cs heq
      exact absurd heq (hdash _)
    · rename_i c cs _ heq
      exact absurd heq (hdash _)
    · rfl
  rw [step, if_neg hne, hword]
  show (s.operand .classify kind).map (fun s => (s, Mode.listing)) = _
  rw [Scan.operand_of_pending?_eq_none hpending]
  rfl

/-- A command that has one operand takes it behind two dashes, whatever it looks like. -/
theorem step_trailing_operand (value : String) (hlevel : level = .check ∨ level = .highlight)
    (hpending : s.pending? = none) (hoperands : s.operands = []) :
    step level .trailing s value =
      .ok ({ s with pending? := some (.operands [value]) }, .trailing) := by
  have hfirst : s.hasOperand = false := by
    rw [Scan.hasOperand, hpending, hoperands]
    rfl
  have hoperand : s.operand level value = .ok { s with pending? := some (.operands [value]) } :=
    Scan.operand_of_pending?_eq_none hpending value
  rcases hlevel with rfl | rfl
  · simp [step, takeOperand, hfirst, hoperand, Except.map]
  · simp [step, takeOperand, hfirst, hoperand, Except.map]

theorem Scan.settle_operands {values : List String}
    (h : level.takesAny ∨ "" ∉ values) :
    ({ s with pending? := some (.operands values) } : Scan).settle level =
      .ok { s with operands := s.operands ++ values, pending? := none } := by
  have hfine : (!level.takesAny && values.contains "") = false := by
    rcases h with hany | hmem
    · simp [hany]
    · simp [hmem]
  simp only [settle, hfine, Bool.false_eq_true, if_false]

end CommandLine

end TokenHighlight
