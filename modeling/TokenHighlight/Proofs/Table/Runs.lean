import Mathlib.Data.List.Induction
import TokenHighlight.Proofs.Table.Configure

/-!
# Runs of configurations

Configurations are applied one after the other; one that fails leaves the table as it was.  In the
end each kind has the tag that the last configuration gave it that succeeded and touched it, and the
whole run does what one configuration does (`configureAll_lastWriter`).
-/

namespace TokenHighlight

namespace Config

variable {c d : Config} {k : Kind}

/-! ## One configuration after another -/

/-- Whether the name is that of no leftover of the lexer. -/
def isNoLeftover (s : String) : Bool := s != "SPACES" && s != "UNEXPECTED_CHAR"

/-- The configuration that does what one and then another do.  The second one discards what the
first one says about leftovers, unless it keeps them. -/
def andThen (c d : Config) : Config where
  keepLeftovers := c.keepLeftovers && d.keepLeftovers
  overrides :=
    (if d.keepLeftovers then c.overrides else c.overrides.filter isNoLeftover).merge d.overrides

/-- The configuration that does what a list of configurations does, one after the other. -/
def merged (cs : List Config) : Config := cs.foldl andThen default

theorem isNoLeftover_name_iff : isNoLeftover k.name ↔ ¬k.IsLeftover := by
  have hspaces : k.name = "SPACES" ↔ k = .spaces :=
    ⟨fun h => Kind.name_inj (b := .spaces) h, fun h => h ▸ rfl⟩
  have hunexpected : k.name = "UNEXPECTED_CHAR" ↔ k = .unexpectedChar :=
    ⟨fun h => Kind.name_inj (b := .unexpectedChar) h, fun h => h ▸ rfl⟩
  simp [isNoLeftover, Kind.IsLeftover, hspaces, hunexpected]

theorem keepLeftovers_andThen (c d : Config) :
    (c.andThen d).keepLeftovers = (c.keepLeftovers && d.keepLeftovers) := rfl

theorem get?_overrides_andThen (c d : Config) (s : String) :
    (c.andThen d).overrides.get? s = (d.overrides.get? s).or
      (if d.keepLeftovers || isNoLeftover s then c.overrides.get? s else none) := by
  rw [andThen, NameMap.get?_merge]
  cases d.keepLeftovers
  · simp [NameMap.get?_filter]
  · simp

theorem IsApplicable.andThen (hc : c.IsApplicable) (hd : d.IsApplicable) :
    (c.andThen d).IsApplicable := by
  intro s hs
  rw [get?_overrides_andThen, Option.isSome_or, Bool.or_eq_true] at hs
  rcases hs with hs | hs
  · exact hd s hs
  · refine hc s ?_
    split_ifs at hs
    · exact hs
    · cases hs

theorem touches_andThen_iff : (c.andThen d).Touches k ↔ c.Touches k ∨ d.Touches k := by
  have hleftover := isNoLeftover_name_iff (k := k)
  simp only [Touches, get?_overrides_andThen, Option.isSome_or, keepLeftovers_andThen]
  cases hd : (d.overrides.get? k.name).isSome
  · by_cases hk : k.IsLeftover
    · have hname : isNoLeftover k.name = false := by simpa [hk] using hleftover
      cases d.keepLeftovers <;> simp [hk, hname]
    · have hname : isNoLeftover k.name = true := hleftover.2 hk
      simp [hk, hname]
  · simp

theorem tagFor_andThen (c d : Config) (k : Kind) :
    (c.andThen d).tagFor k = if d.Touches k then d.tagFor k else c.tagFor k := by
  have hleftover := isNoLeftover_name_iff (k := k)
  rw [tagFor, get?_overrides_andThen, tagFor, tagFor]
  cases hd : d.overrides.get? k.name with
  | some a => simp [Touches, hd]
  | none =>
      by_cases hk : k.IsLeftover
      · have hname : isNoLeftover k.name = false := by simpa [hk] using hleftover
        cases hkeep : d.keepLeftovers <;> simp [Touches, hd, hk, hname, hkeep]
      · have hname : isNoLeftover k.name = true := hleftover.2 hk
        simp [Touches, hd, hk, hname]

/-! ## Many configurations -/

theorem merged_append_singleton (cs : List Config) (d : Config) :
    merged (cs ++ [d]) = (merged cs).andThen d := by
  simp [merged, List.foldl_append]

theorem keepLeftovers_merged (cs : List Config) :
    (merged cs).keepLeftovers = cs.all keepLeftovers := by
  induction cs using List.reverseRecOn with
  | nil => rfl
  | append_singleton cs d ih =>
      rw [merged_append_singleton, keepLeftovers_andThen, ih]
      simp

/-- The last override of a name, unless a later configuration discards it. -/
def IsLastOverride (cs : List Config) (s : String) (a : Classification) : Prop :=
  ∃ before c after, cs = before ++ c :: after ∧ c.overrides.get? s = some a ∧
    ∀ d ∈ after, d.overrides.get? s = none ∧ (d.keepLeftovers ∨ isNoLeftover s)

theorem isLastOverride_append_singleton_iff {cs : List Config} {s : String} {a : Classification} :
    IsLastOverride (cs ++ [d]) s a ↔ d.overrides.get? s = some a ∨
      d.overrides.get? s = none ∧ (d.keepLeftovers ∨ isNoLeftover s) ∧ IsLastOverride cs s a := by
  constructor
  · rintro ⟨before, c, after, hsplit, hget, hafter⟩
    rcases after.eq_nil_or_concat with rfl | ⟨after, e, rfl⟩
    · obtain ⟨-, heq⟩ := List.append_inj' hsplit rfl
      obtain rfl : d = c := List.singleton_inj.1 heq
      exact Or.inl hget
    · have hassoc : before ++ c :: (after ++ [e]) = (before ++ c :: after) ++ [e] := by simp
      rw [List.concat_eq_append] at hsplit hafter
      obtain ⟨hcs, heq⟩ := List.append_inj' (hsplit.trans hassoc) rfl
      obtain rfl : d = e := List.singleton_inj.1 heq
      obtain ⟨hnone, hkept⟩ := hafter d (by simp)
      exact Or.inr ⟨hnone, hkept, before, c, after, hcs, hget,
        fun x hx => hafter x (List.mem_append_left _ hx)⟩
  · rintro (hget | ⟨hnone, hkept, before, c, after, rfl, hget, hafter⟩)
    · exact ⟨cs, d, [], rfl, hget, by simp⟩
    · refine ⟨before, c, after ++ [d], by simp, hget, fun x hx => ?_⟩
      rcases List.mem_append.1 hx with hx | hx
      · exact hafter x hx
      · obtain rfl := List.mem_singleton.1 hx
        exact ⟨hnone, hkept⟩

theorem get?_overrides_merged_iff {cs : List Config} {s : String} {a : Classification} :
    (merged cs).overrides.get? s = some a ↔ IsLastOverride cs s a := by
  induction cs using List.reverseRecOn with
  | nil => simp [merged, default, IsLastOverride]
  | append_singleton cs d ih =>
      rw [merged_append_singleton, get?_overrides_andThen, isLastOverride_append_singleton_iff, ← ih]
      cases hd : d.overrides.get? s with
      | some b => simp
      | none => simp [Bool.or_eq_true]

end Config

namespace Table

variable {t u w : Table} {c d : Config}

theorem configure_andThen (hc : t.configure c = .ok u) (hd : u.configure d = .ok w) :
    t.configure (c.andThen d) = .ok w := by
  obtain ⟨hc, hu⟩ := configure_eq_ok_iff.1 hc
  obtain ⟨hd, hw⟩ := configure_eq_ok_iff.1 hd
  refine configure_eq_ok_iff.2 ⟨hc.andThen hd, fun k => ?_⟩
  rw [hw, hu, Config.tagFor_andThen]
  by_cases hdk : d.Touches k <;> by_cases hck : c.Touches k <;>
    simp [Config.touches_andThen_iff, hdk, hck]

theorem configure_default (t : Table) : t.configure .default = .ok t := rfl

theorem configure_idempotent (h : t.configure c = .ok u) : u.configure c = .ok u := by
  obtain ⟨happlicable, hu⟩ := configure_eq_ok_iff.1 h
  refine configure_eq_ok_iff.2 ⟨happlicable, fun k => ?_⟩
  by_cases hk : c.Touches k
  · simp [hu k, hk]
  · simp [hk]

/-! ## Runs -/

/-- The table after configurations, of which those that fail are passed over. -/
def configureAll (t : Table) : List Config → Table
  | [] => t
  | c :: cs =>
      match t.configure c with
      | .ok u => u.configureAll cs
      | .error _ => t.configureAll cs

/-- The configurations of a run that do not fail. -/
def succeeding (t : Table) : List Config → List Config
  | [] => []
  | c :: cs =>
      match t.configure c with
      | .ok u => c :: u.succeeding cs
      | .error _ => t.succeeding cs

/-- The last configuration of a list that touches a kind. -/
def IsLastWriter (cs : List Config) (k : Kind) (c : Config) : Prop :=
  ∃ before after, cs = before ++ c :: after ∧ c.Touches k ∧ ∀ d ∈ after, ¬d.Touches k

theorem IsLastWriter.cons {cs : List Config} {k : Kind} (h : IsLastWriter cs k c) (d : Config) :
    IsLastWriter (d :: cs) k c := by
  obtain ⟨before, after, rfl, htouches, hafter⟩ := h
  exact ⟨d :: before, after, rfl, htouches, hafter⟩

/-- What a step gives a kind stays until a later step touches the kind. -/
theorem get_configureAll (t : Table) (cs : List Config) (k : Kind) :
    (∃ c, IsLastWriter (t.succeeding cs) k c ∧ (t.configureAll cs).get k = c.tagFor k) ∨
      (∀ c ∈ t.succeeding cs, ¬c.Touches k) ∧ (t.configureAll cs).get k = t.get k := by
  induction cs generalizing t with
  | nil => exact Or.inr ⟨by simp [succeeding], rfl⟩
  | cons c cs ih =>
      unfold succeeding configureAll
      cases hc : t.configure c with
      | error e => exact ih t
      | ok u =>
          obtain ⟨-, hu⟩ := configure_eq_ok_iff.1 hc
          rcases ih u with ⟨d, hlast, hget⟩ | ⟨huntouched, hget⟩
          · exact Or.inl ⟨d, hlast.cons c, hget⟩
          · by_cases hk : c.Touches k
            · refine Or.inl ⟨c, ⟨[], u.succeeding cs, rfl, hk, huntouched⟩, ?_⟩
              rw [hget, hu, if_pos hk]
            · refine Or.inr ⟨List.forall_mem_cons.2 ⟨hk, huntouched⟩, ?_⟩
              rw [hget, hu, if_neg hk]

/-- A run goes on from what one configuration did as that configuration goes on. -/
theorem configure_foldl_andThen (h : t.configure c = .ok u) (cs : List Config) :
    t.configure ((u.succeeding cs).foldl Config.andThen c) = .ok (u.configureAll cs) := by
  induction cs generalizing c u with
  | nil => exact h
  | cons d cs ih =>
      unfold succeeding configureAll
      cases hd : u.configure d with
      | error e => exact ih h
      | ok w => exact ih (configure_andThen h hd)

theorem configure_merged (t : Table) (cs : List Config) :
    t.configure (Config.merged (t.succeeding cs)) = .ok (t.configureAll cs) :=
  configure_foldl_andThen t.configure_default cs

theorem get_of_not_touches (h : t.configure c = .ok u) {k : Kind} (hk : ¬c.Touches k) :
    u.get k = t.get k := by
  rw [(configure_eq_ok_iff.1 h).2 k, if_neg hk]

/-- After a run, each kind has the tag of the last configuration that succeeded and touched it, or
its first tag if there is none.  One configuration does the same: it keeps the leftovers if all of
the run that succeeded do, and its overrides are the last ones that were not discarded.  Applying a
configuration again changes nothing, the default one never changes anything, and keeping the
leftovers gives none of them back its tag. -/
theorem configureAll_lastWriter (t : Table) (cs : List Config) :
    (∀ k : Kind,
      (∃ c, IsLastWriter (t.succeeding cs) k c ∧ (t.configureAll cs).get k = c.tagFor k) ∨
      (∀ c ∈ t.succeeding cs, ¬c.Touches k) ∧ (t.configureAll cs).get k = t.get k) ∧
    (∃ d : Config, t.configure d = .ok (t.configureAll cs) ∧
      d.keepLeftovers = (t.succeeding cs).all Config.keepLeftovers ∧
      ∀ s a, d.overrides.get? s = some a ↔ Config.IsLastOverride (t.succeeding cs) s a) ∧
    (∀ c u, t.configure c = .ok u → u.configure c = .ok u) ∧
    t.configure .default = .ok t ∧
    ∀ c u k, t.configure c = .ok u → c.keepLeftovers → c.overrides.get? k.name = none →
      u.get k = t.get k := by
  refine ⟨get_configureAll t cs, ?_, fun c u => configure_idempotent, configure_default t, ?_⟩
  · exact ⟨_, configure_merged t cs, Config.keepLeftovers_merged _,
      fun s a => Config.get?_overrides_merged_iff⟩
  · intro c u k h hkeep hnone
    exact get_of_not_touches h (by simp [Config.Touches, hkeep, hnone])

/-- White space gets a tag, an override of no kind fails, and the leftovers lose their tags. -/
def spacesRun : List Config :=
  [⟨true, .ofList [("SPACES", .identifier)]⟩, ⟨true, .ofList [("NOPE", .keyword)]⟩, ⟨false, .empty⟩]

/-- The step that fails is passed over and the last one is the last writer.  The one configuration
that does the same overrides nothing. -/
theorem configureAll_lastWriter_spaces :
    blank.succeeding spacesRun = [⟨true, .ofList [("SPACES", .identifier)]⟩, ⟨false, .empty⟩] ∧
      (blank.configureAll spacesRun).get .spaces = none ∧
      ∃ d : Config, blank.configure d = .ok (blank.configureAll spacesRun) ∧
        d.keepLeftovers = false ∧ d.overrides.get? "SPACES" = none := by
  have hsucceeding : blank.succeeding spacesRun =
      [⟨true, .ofList [("SPACES", .identifier)]⟩, ⟨false, .empty⟩] := rfl
  have htouches : Config.Touches ⟨false, .empty⟩ .spaces := Or.inr ⟨rfl, Or.inl rfl⟩
  obtain ⟨htags, ⟨d, hd, hkeep, hoverrides⟩, -⟩ := configureAll_lastWriter blank spacesRun
  rw [hsucceeding] at htags hkeep hoverrides
  refine ⟨hsucceeding, ?_, d, hd, hkeep, ?_⟩
  · rcases htags .spaces with ⟨c, ⟨before, after, hsplit, -, hafter⟩, hget⟩ | ⟨huntouched, -⟩
    · rcases before with _ | ⟨_, _ | _⟩
      · cases hsplit
        exact absurd htouches (hafter _ (List.mem_singleton_self _))
      · cases hsplit
        exact hget
      · simp at hsplit
    · exact absurd htouches (huntouched _ (by simp))
  · refine Option.eq_none_iff_forall_ne_some.2 fun a ha => ?_
    obtain ⟨before, c, after, hsplit, hget, hafter⟩ := (hoverrides _ _).1 ha
    rcases before with _ | ⟨_, _ | _⟩
    · cases hsplit
      rcases (hafter _ (List.mem_singleton_self _)).2 with hkept | hkept <;> cases hkept
    · cases hsplit
      cases hget
    · simp at hsplit

end Table

end TokenHighlight
