import TokenHighlight.Proofs.Table.Configure
import TokenHighlight.Proofs.Vocabulary.Builtin

/-!
# Tables as overrides

The rows of a table can be written as overrides.  Applied to any other table, they make it the first
one, and so do the rows in which the two tables differ (`configure_rebuilds`).  What counts is which
kinds are overridden (`configure_overridesOf_eq_ok_iff`): those that are not keep their tags, unless
they are leftovers and the configuration clears these.
-/

namespace TokenHighlight

namespace Table

variable {t : Table}

/-- The override that gives a kind a tag or none. -/
def overrideOf (row : Kind × Option Tag) : String × Classification := (row.1.name, .ofTag? row.2)

/-- The overrides that give kinds the tags of rows. -/
def overridesOf (rows : List (Kind × Option Tag)) : NameMap Classification :=
  .ofList (rows.map overrideOf)

/-- The table with given tags. -/
def ofFun (f : Kind → Option Tag) : Table := Kind.all.foldl (fun t k => t.set k (f k)) blank

@[simp] theorem get_ofFun (f : Kind → Option Tag) (k : Kind) : (ofFun f).get k = f k := by
  rw [ofFun, get_foldl_set, if_pos k.mem_all]

/-! ## Rows -/

theorem mem_toList {k : Kind} {tag? : Option Tag} : (k, tag?) ∈ t.toList ↔ t.get k = tag? := by
  rw [toList, List.mem_map]
  constructor
  · rintro ⟨l, -, heq⟩
    cases heq
    rfl
  · rintro rfl
    exact ⟨k, k.mem_all, rfl⟩

theorem nodup_kinds_filter_toList (t : Table) (p : Kind × Option Tag → Bool) :
    ((t.toList.filter p).map Prod.fst).Nodup := by
  have hkinds : t.toList.map Prod.fst = Kind.all := by
    rw [toList, List.map_map]
    exact List.map_id _
  refine List.Nodup.sublist (List.filter_sublist.map Prod.fst) ?_
  rw [hkinds]
  exact Kind.nodup_all

theorem lookup_filter_toList (t : Table) (p : Kind × Option Tag → Bool) (k : Kind) :
    (t.toList.filter p).lookup k = if p (k, t.get k) then some (t.get k) else none := by
  apply Option.ext
  intro tag?
  rw [lookup_eq_some_iff_mem (t.nodup_kinds_filter_toList p), List.mem_filter, mem_toList]
  constructor
  · rintro ⟨rfl, hp⟩
    exact if_pos hp
  · intro h
    split_ifs at h with hp
    obtain rfl := Option.some.inj h
    exact ⟨rfl, hp⟩

/-! ## Overrides -/

theorem lookup_map_overrideOf (rows : List (Kind × Option Tag)) (k : Kind) :
    (rows.map overrideOf).lookup k.name = (rows.lookup k).map .ofTag? := by
  induction rows with
  | nil => rfl
  | cons row rows ih =>
      rw [List.map_cons, lookup_cons_eq_ite, lookup_cons_eq_ite, ih]
      by_cases hk : k = row.1
      · simp [overrideOf, hk]
      · have hname : k.name ≠ row.1.name := fun heq => hk (Kind.name_inj heq)
        simp [overrideOf, hk, hname]

section

variable {rows : List (Kind × Option Tag)} (h : (rows.map Prod.fst).Nodup)

include h

theorem nodup_names_map_overrideOf : ((rows.map overrideOf).map Prod.fst).Nodup := by
  have hnames : (rows.map overrideOf).map Prod.fst = (rows.map Prod.fst).map Kind.name := by
    rw [List.map_map, List.map_map]
    rfl
  rw [hnames]
  exact h.map fun _ _ => Kind.name_inj

theorem isApplicable_overridesOf (keep : Bool) : Config.IsApplicable ⟨keep, overridesOf rows⟩ := by
  have hnodup := nodup_names_map_overrideOf h
  intro s hs
  obtain ⟨a, ha⟩ := Option.isSome_iff_exists.1 hs
  rw [overridesOf, NameMap.get?_ofList hnodup, lookup_eq_some_iff_mem hnodup] at ha
  obtain ⟨row, -, hrow⟩ := List.mem_map.1 ha
  exact ⟨row.1, congrArg Prod.fst hrow⟩

theorem get?_overridesOf (k : Kind) :
    (overridesOf rows).get? k.name = (rows.lookup k).map .ofTag? := by
  rw [overridesOf, NameMap.get?_ofList (nodup_names_map_overrideOf h), lookup_map_overrideOf]

end

/-- Overridden kinds get the tags of the other table.  The rest is cleared or stays as it is. -/
theorem configure_overridesOf_eq_ok_iff (t u w : Table) (keep : Bool)
    (p : Kind × Option Tag → Bool) :
    t.configure ⟨keep, overridesOf (u.toList.filter p)⟩ = .ok w ↔ ∀ k, w.get k =
      if p (k, u.get k) then u.get k
      else if keep = false ∧ k.IsLeftover then none else t.get k := by
  have hnodup := u.nodup_kinds_filter_toList p
  rw [configure_eq_ok_iff, and_iff_right (isApplicable_overridesOf hnodup keep)]
  refine forall_congr' fun k => ?_
  rw [ite_touches_eq_match, get?_overridesOf hnodup, lookup_filter_toList]
  by_cases hp : p (k, u.get k)
  · simp [hp]
  · simp [hp]

theorem configure_overridesOf_toList (t u : Table) (keep : Bool) :
    t.configure ⟨keep, overridesOf u.toList⟩ = .ok u := by
  rw [← List.filter_true u.toList, configure_overridesOf_eq_ok_iff]
  exact fun k => (if_pos rfl).symm

/-- Overriding all kinds with their tags in a table turns any table into it, whether or not leftovers
are kept.  If they are, the kinds with other tags are enough.  So every assignment of tags comes from
a configuration. -/
theorem configure_rebuilds (t u : Table) :
    (∀ keep, t.configure ⟨keep, overridesOf u.toList⟩ = .ok u) ∧
    t.configure ⟨true, overridesOf (u.toList.filter fun row => row.2 ≠ t.get row.1)⟩ = .ok u ∧
    ∀ f : Kind → Option Tag, ∃ c w, standard.configure c = .ok w ∧ ∀ k, w.get k = f k := by
  refine ⟨configure_overridesOf_toList t u, ?_, fun f => ?_⟩
  · rw [configure_overridesOf_eq_ok_iff]
    intro k
    by_cases hk : u.get k = t.get k
    · simp [hk]
    · simp [hk]
  · exact ⟨_, ofFun f, configure_overridesOf_toList standard (ofFun f) true, get_ofFun f⟩

end Table

end TokenHighlight
