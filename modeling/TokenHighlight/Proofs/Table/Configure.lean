import TokenHighlight.Proofs.NameMap
import TokenHighlight.Proofs.Text.ByteOrder
import TokenHighlight.Table

/-!
# What a configuration does to a table

A configuration applies to a table if and only if all its overrides name kinds, whatever the table.
It touches the kinds that it overrides and, unless it keeps them, the leftovers of the lexer; it
gives these kinds a tag or none and leaves all others alone (`configure_eq_ok_iff`).  Otherwise the
first name that is unknown is reported (`configure_eq_error_iff`), which is the least one in the
order of bytes (`configure_follows_config`).
-/

namespace TokenHighlight

/-- The lexer leaves white space and unmatched characters over. -/
def Kind.IsLeftover (k : Kind) : Prop := k = .spaces ∨ k = .unexpectedChar

instance : DecidablePred Kind.IsLeftover := fun k =>
  inferInstanceAs (Decidable (k = .spaces ∨ k = .unexpectedChar))

namespace Config

/-- All overrides name kinds. -/
def IsApplicable (c : Config) : Prop :=
  ∀ s, (c.overrides.get? s).isSome → ∃ k : Kind, k.name = s

/-- The first name of an override, in the order of the names, that names no kind. -/
structure IsFirstUnknown (c : Config) (name : String) : Prop where
  overridden : (c.overrides.get? name).isSome
  unknown : ¬∃ k : Kind, k.name = name
  earlier : ∀ s, s < name → (c.overrides.get? s).isSome → ∃ k : Kind, k.name = s

/-- The least name of an override, in the order of bytes, that names no kind. -/
structure IsLeastUnknown (c : Config) (name : String) : Prop where
  overridden : (c.overrides.get? name).isSome
  unknown : ¬∃ k : Kind, k.name = name
  least : ∀ s, (c.overrides.get? s).isSome → (¬∃ k : Kind, k.name = s) →
    Text.bytes name ≤ Text.bytes s

/-- The kind is overridden, or it is a leftover of the lexer and these are not kept. -/
def Touches (c : Config) (k : Kind) : Prop :=
  (c.overrides.get? k.name).isSome ∨ c.keepLeftovers = false ∧ k.IsLeftover

instance (c : Config) : DecidablePred c.Touches := fun k =>
  inferInstanceAs (Decidable ((c.overrides.get? k.name).isSome ∨ _ ∧ _))

/-- The tag of the override of a kind; no tag without an override. -/
def tagFor (c : Config) (k : Kind) : Option Tag :=
  (c.overrides.get? k.name).bind Classification.tag?

theorem IsFirstUnknown.eq {c : Config} {r s : String} (hr : c.IsFirstUnknown r)
    (hs : c.IsFirstUnknown s) : r = s := by
  have hsr : ¬s < r := fun hlt => hs.unknown (hr.earlier s hlt hs.overridden)
  have hrs : ¬r < s := fun hlt => hr.unknown (hs.earlier r hlt hr.overridden)
  exact String.le_antisymm (String.not_lt.1 hsr) (String.not_lt.1 hrs)

/-- Names are in the order of their bytes. -/
theorem isFirstUnknown_iff {c : Config} {name : String} :
    c.IsFirstUnknown name ↔ c.IsLeastUnknown name := by
  constructor
  · intro h
    refine ⟨h.overridden, h.unknown, fun s hs hunknown => ?_⟩
    rw [← Text.le_iff_bytes_le, ← String.not_lt]
    exact fun hlt => hunknown (h.earlier s hlt hs)
  · intro h
    refine ⟨h.overridden, h.unknown, fun s hlt hs => ?_⟩
    by_contra hunknown
    have hle := h.least s hs hunknown
    rw [← Text.le_iff_bytes_le, ← String.not_lt] at hle
    exact hle hlt

end Config

namespace Table

variable {t u : Table} {c : Config}

/-! ## Tables and their tags -/

theorem ext_get (h : ∀ k, t.get k = u.get k) : t = u := by
  obtain ⟨ts⟩ := t
  obtain ⟨us⟩ := u
  congr 1
  refine Vector.ext fun i hi => ?_
  have hk : Kind.all[i]? = some Kind.all[i] := List.getElem?_eq_getElem hi
  have hindex := Kind.index_of_getElem?_all hk
  have htag := h Kind.all[i]
  simpa [get, hindex] using htag

theorem get_foldl_set (f : Kind → Option Tag) (ks : List Kind) (t : Table) (l : Kind) :
    (ks.foldl (fun t k => t.set k (f k)) t).get l = if l ∈ ks then f l else t.get l := by
  induction ks generalizing t with
  | nil => simp
  | cons k ks ih =>
      rw [List.foldl_cons, ih, get_set]
      by_cases hl : l = k <;> by_cases hmem : l ∈ ks <;> simp [hl, hmem]

theorem mem_lexerLeftovers_iff {k : Kind} :
    k ∈ KindSet.lexerLeftovers.toList ↔ k.IsLeftover := by
  simp [KindSet.lexerLeftovers, KindSet.ofList, Kind.IsLeftover]

theorem get_clearLeftovers (t : Table) (k : Kind) :
    t.clearLeftovers.get k = if k.IsLeftover then none else t.get k := by
  rw [clearLeftovers, get_foldl_set fun _ => none]
  simp only [mem_lexerLeftovers_iff]

/-! ## Overrides -/

theorem override_of_name (t : Table) (k : Kind) (a : Classification) :
    t.override (k.name, a) = .ok (t.set k a.tag?) := by
  simp [override, Kind.ofName?_name]

theorem exists_name_of_override {e : String × Classification} (h : t.override e = .ok u) :
    ∃ k : Kind, k.name = e.1 := by
  unfold override at h
  split at h
  · cases h
  · rename_i k hk
    exact ⟨k, Kind.ofName?_eq_some_iff.1 hk⟩

theorem exists_name_of_foldlM_override {es : List (String × Classification)}
    (h : es.foldlM override t = .ok u) : ∀ e ∈ es, ∃ k : Kind, k.name = e.1 := by
  induction es generalizing t with
  | nil => simp
  | cons e es ih =>
      rw [List.foldlM_cons] at h
      cases hfirst : t.override e with
      | error err =>
          rw [hfirst] at h
          cases h
      | ok w =>
          rw [hfirst] at h
          rw [List.forall_mem_cons]
          exact ⟨exists_name_of_override hfirst, ih h⟩

/-- Overrides with different names each change the tag of one kind. -/
theorem exists_foldlM_override_eq_ok {es : List (String × Classification)}
    (hnodup : (es.map Prod.fst).Nodup) (h : ∀ e ∈ es, ∃ k : Kind, k.name = e.1) (t : Table) :
    ∃ u, es.foldlM override t = .ok u ∧ ∀ k : Kind, u.get k =
      if (es.lookup k.name).isSome then (es.lookup k.name).bind Classification.tag?
      else t.get k := by
  induction es generalizing t with
  | nil => exact ⟨t, rfl, fun k => by simp⟩
  | cons e es ih =>
      rw [List.map_cons, List.nodup_cons] at hnodup
      rw [List.forall_mem_cons] at h
      obtain ⟨⟨k, hk⟩, hrest⟩ := h
      obtain ⟨u, hu, hget⟩ := ih hnodup.2 hrest (t.set k e.2.tag?)
      refine ⟨u, ?_, fun l => ?_⟩
      · have hfirst : t.override e = .ok (t.set k e.2.tag?) := by
          rw [← override_of_name, hk]
        rw [List.foldlM_cons, hfirst]
        exact hu
      · by_cases hl : l = k
        · subst hl
          have hnone : es.lookup l.name = none := lookup_eq_none_iff_not_mem.2 (hk ▸ hnodup.1)
          rw [hget, hnone, get_set_self, lookup_cons_eq_ite, if_pos hk]
          rfl
        · have hne : l.name ≠ e.1 := fun heq => hl (Kind.name_inj (heq.trans hk.symm))
          rw [hget, get_set, if_neg hl, lookup_cons_eq_ite, if_neg hne]

/-! ## Configurations -/

theorem isApplicable_iff :
    c.IsApplicable ↔ ∀ e ∈ c.overrides.entries, ∃ k : Kind, k.name = e.1 := by
  constructor
  · intro h e he
    have hget : c.overrides.get? e.1 = some e.2 := NameMap.get?_eq_some_iff.2 he
    exact h e.1 (by simp [hget])
  · intro h s hs
    obtain ⟨a, ha⟩ := Option.isSome_iff_exists.1 hs
    exact h (s, a) (NameMap.get?_eq_some_iff.1 ha)

theorem isApplicable_of_configure (h : t.configure c = .ok u) : c.IsApplicable :=
  isApplicable_iff.2 (exists_name_of_foldlM_override h)

theorem exists_configure_eq_ok (h : c.IsApplicable) (t : Table) :
    ∃ u, t.configure c = .ok u ∧
      ∀ k, u.get k = if c.Touches k then c.tagFor k else t.get k := by
  obtain ⟨u, hu, hget⟩ := exists_foldlM_override_eq_ok c.overrides.nodup_names
    (isApplicable_iff.1 h) (if c.keepLeftovers then t else t.clearLeftovers)
  refine ⟨u, hu, fun k => ?_⟩
  rw [hget, ← NameMap.get?]
  cases hoverride : c.overrides.get? k.name with
  | some a => simp [Config.Touches, Config.tagFor, hoverride]
  | none =>
      cases hkeep : c.keepLeftovers
      · simp [Config.Touches, Config.tagFor, hoverride, hkeep, get_clearLeftovers]
      · simp [Config.Touches, hoverride, hkeep]

theorem configure_eq_ok_iff :
    t.configure c = .ok u ↔
      c.IsApplicable ∧ ∀ k, u.get k = if c.Touches k then c.tagFor k else t.get k := by
  constructor
  · intro h
    have happlicable := isApplicable_of_configure h
    obtain ⟨w, hw, hget⟩ := exists_configure_eq_ok happlicable t
    obtain rfl : w = u := Except.ok.inj (hw.symm.trans h)
    exact ⟨happlicable, hget⟩
  · rintro ⟨happlicable, hget⟩
    obtain ⟨w, hw, hget'⟩ := exists_configure_eq_ok happlicable t
    obtain rfl : w = u := ext_get fun k => (hget' k).trans (hget k).symm
    exact hw

/-! ## Failure -/

theorem unknown_of_override {x : String × Classification} {e : TableError}
    (h : t.override x = .error e) : (¬∃ k : Kind, k.name = x.1) ∧ e = .unknownKind x.1 := by
  unfold override at h
  split at h
  · rename_i hnone
    cases h
    refine ⟨?_, rfl⟩
    rintro ⟨k, hk⟩
    rw [Kind.ofName?_eq_some_iff.2 hk] at hnone
    cases hnone
  · cases h

theorem foldlM_override_eq_error {es : List (String × Classification)} {e : TableError}
    (h : es.foldlM override t = .error e) : ∃ before x after, es = before ++ x :: after ∧
      (∀ y ∈ before, ∃ k : Kind, k.name = y.1) ∧ (¬∃ k : Kind, k.name = x.1) ∧
      e = .unknownKind x.1 := by
  induction es generalizing t with
  | nil => cases h
  | cons x es ih =>
      rw [List.foldlM_cons] at h
      cases hfirst : t.override x with
      | error err =>
          rw [hfirst] at h
          cases h
          exact ⟨[], x, es, rfl, by simp, unknown_of_override hfirst⟩
      | ok w =>
          rw [hfirst] at h
          obtain ⟨before, y, after, rfl, hbefore, hunknown, he⟩ := ih h
          exact ⟨x :: before, y, after, rfl,
            List.forall_mem_cons.2 ⟨exists_name_of_override hfirst, hbefore⟩, hunknown, he⟩

theorem exists_isFirstUnknown_of_configure {e : TableError} (h : t.configure c = .error e) :
    ∃ name, c.IsFirstUnknown name ∧ e = .unknownKind name := by
  obtain ⟨before, ⟨name, a⟩, after, hentries, hbefore, hunknown, he⟩ := foldlM_override_eq_error h
  have hsorted := c.overrides.sorted
  rw [hentries, List.pairwise_append, List.pairwise_cons] at hsorted
  refine ⟨name, ⟨?_, hunknown, fun s hlt hs => ?_⟩, he⟩
  · have hget : c.overrides.get? name = some a := by
      rw [NameMap.get?_eq_some_iff, hentries]
      simp
    rw [hget]
    rfl
  · obtain ⟨b, hb⟩ := Option.isSome_iff_exists.1 hs
    rw [NameMap.get?_eq_some_iff, hentries, List.mem_append, List.mem_cons] at hb
    rcases hb with hb | hb | hb
    · exact hbefore _ hb
    · cases hb
      exact absurd hlt (String.lt_irrefl _)
    · exact absurd (String.lt_trans hlt (hsorted.2.1.1 _ hb)) (String.lt_irrefl _)

theorem configure_eq_error_iff {e : TableError} :
    t.configure c = .error e ↔ ∃ name, c.IsFirstUnknown name ∧ e = .unknownKind name := by
  refine ⟨exists_isFirstUnknown_of_configure, ?_⟩
  rintro ⟨name, hname, rfl⟩
  cases hconfigure : t.configure c with
  | ok u => exact absurd (isApplicable_of_configure hconfigure name hname.overridden) hname.unknown
  | error e =>
      obtain ⟨name', hname', rfl⟩ := exists_isFirstUnknown_of_configure hconfigure
      rw [hname'.eq hname]

/-! ## One configuration -/

theorem exists_configure_eq_ok_iff :
    (∃ u, t.configure c = .ok u) ↔ c.IsApplicable := by
  constructor
  · rintro ⟨u, hu⟩
    exact isApplicable_of_configure hu
  · intro h
    obtain ⟨u, hu, -⟩ := exists_configure_eq_ok h t
    exact ⟨u, hu⟩

/-- The tag of a kind is that of its override, none for a leftover that is not kept, and else the
tag that it has. -/
theorem ite_touches_eq_match (k : Kind) : (if c.Touches k then c.tagFor k else t.get k) =
    match c.overrides.get? k.name with
    | some a => a.tag?
    | none => if c.keepLeftovers = false ∧ k.IsLeftover then none else t.get k := by
  cases hoverride : c.overrides.get? k.name with
  | some a => simp [Config.Touches, Config.tagFor, hoverride]
  | none => simp [Config.Touches, Config.tagFor, hoverride]

/-- A configuration succeeds if and only if each override has the name of a kind.  A kind then has
the tag of its override, no tag if it is a leftover and these are not kept, and its old tag if it is
neither.  A failure names the least unknown name in the order of bytes. -/
theorem configure_follows_config (t : Table) (c : Config) :
    ((∃ u, t.configure c = .ok u) ↔ c.IsApplicable) ∧
    (∀ u, t.configure c = .ok u ↔ c.IsApplicable ∧ ∀ k : Kind, u.get k =
      match c.overrides.get? k.name with
      | some a => a.tag?
      | none =>
          if c.keepLeftovers = false ∧ (k = .spaces ∨ k = .unexpectedChar) then none
          else t.get k) ∧
    ∀ e, t.configure c = .error e ↔ ∃ name, c.IsLeastUnknown name ∧ e = .unknownKind name ∧
      e.message = "unknown token kind `" ++ name ++ "` in overrides" := by
  refine ⟨exists_configure_eq_ok_iff, fun u => ?_, fun e => ?_⟩
  · rw [configure_eq_ok_iff]
    simp only [ite_touches_eq_match]
    rfl
  · rw [configure_eq_error_iff]
    refine exists_congr fun name => ?_
    rw [Config.isFirstUnknown_iff]
    refine and_congr_right fun _ => ⟨?_, And.left⟩
    rintro rfl
    exact ⟨rfl, rfl⟩

end Table

end TokenHighlight
