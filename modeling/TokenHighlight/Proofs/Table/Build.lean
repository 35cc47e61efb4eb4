import TokenHighlight.Proofs.Kind.Set
import TokenHighlight.Proofs.Table.Export

/-!
# Tables of groups

A table is built group by group and each group kind by kind.  A step fails if its kind has a tag
already, so a run fails if and only if two groups share a kind, or a group has a kind that the table
gives a tag from the start (`foldlM_addGroup?_eq_some_iff`).  What is built from a list of groups
gives each kind the tag of its group, whatever the order of the groups (`build?_exact`).
-/

namespace TokenHighlight

/-- The tag of the first group that has a kind. -/
def groupTag? (groups : List (KindSet × Tag)) (k : Kind) : Option Tag :=
  (groups.find? fun g => g.1.contains k).map Prod.snd

/-- The groups have no kind in common, whatever their tags. -/
def AreApart (g h : KindSet × Tag) : Prop := ∀ k, g.1.contains k → ¬h.1.contains k

namespace Table

variable {t u : Table} {tag : Tag} {k : Kind} {ks : List Kind} {g : KindSet × Tag}
  {groups : List (KindSet × Tag)}

/-! ## One group -/

theorem assign?_eq_some_iff :
    assign? tag t k = some u ↔ t.get k = none ∧ u = t.set k (some tag) := by
  unfold assign?
  cases t.get k with
  | none => simp [eq_comm]
  | some _ => simp

/-- After some of the kinds of a group, these have the tag of the group and no other kind has
changed. -/
theorem foldlM_assign?_eq_some_iff (h : ks.Nodup) :
    ks.foldlM (assign? tag) t = some u ↔
      (∀ k ∈ ks, t.get k = none) ∧ ∀ l, u.get l = if l ∈ ks then some tag else t.get l := by
  induction ks generalizing t with
  | nil =>
      simp only [List.foldlM_nil, Option.pure_def, Option.some.injEq, List.not_mem_nil,
        if_false, false_implies, implies_true, true_and]
      constructor
      · rintro rfl l
        rfl
      · intro hget
        exact ext_get fun l => (hget l).symm
  | cons k ks ih =>
      obtain ⟨hk, hks⟩ := List.nodup_cons.1 h
      have hother : ∀ l ∈ ks, (t.set k (some tag)).get l = t.get l := by
        intro l hl
        have hne : l ≠ k := ne_of_mem_of_not_mem hl hk
        rw [get_set, if_neg hne]
      have hrun : (k :: ks).foldlM (assign? tag) t = some u ↔
          t.get k = none ∧ ks.foldlM (assign? tag) (t.set k (some tag)) = some u := by
        rw [List.foldlM_cons, Option.bind_eq_bind, Option.bind_eq_some_iff]
        simp only [assign?_eq_some_iff, and_assoc, exists_and_left, exists_eq_left]
      rw [hrun, ih hks, List.forall_mem_cons, and_assoc]
      refine and_congr_right fun _ => and_congr (forall₂_congr fun l hl => by rw [hother l hl]) ?_
      refine forall_congr' fun l => ?_
      by_cases hl : l = k <;> by_cases hmem : l ∈ ks <;> simp [get_set, hl, hmem]

theorem addGroup?_eq_some_iff : addGroup? t g = some u ↔
    (∀ k, g.1.contains k → t.get k = none) ∧
      ∀ k, u.get k = if g.1.contains k then some g.2 else t.get k := by
  rw [addGroup?, foldlM_assign?_eq_some_iff g.1.nodup_toList]
  simp only [KindSet.mem_toList]

theorem exists_addGroup?_eq_some (h : ∀ k, g.1.contains k → t.get k = none) :
    ∃ u, addGroup? t g = some u ∧
      ∀ k, u.get k = if g.1.contains k then some g.2 else t.get k := by
  have hget := get_ofFun fun k => if g.1.contains k then some g.2 else t.get k
  exact ⟨_, addGroup?_eq_some_iff.2 ⟨h, hget⟩, hget⟩

/-! ## All groups -/

theorem groupTag?_cons (g : KindSet × Tag) (groups : List (KindSet × Tag)) (k : Kind) :
    groupTag? (g :: groups) k = if g.1.contains k then some g.2 else groupTag? groups k := by
  by_cases hk : g.1.contains k <;> simp [groupTag?, hk]

theorem groupTag?_eq_none_iff : groupTag? groups k = none ↔ ∀ g ∈ groups, ¬g.1.contains k := by
  simp [groupTag?]

theorem groupTag?_eq_some_iff (h : groups.Pairwise AreApart) :
    groupTag? groups k = some tag ↔ ∃ s, (s, tag) ∈ groups ∧ s.contains k := by
  induction groups with
  | nil => simp [groupTag?]
  | cons g groups ih =>
      obtain ⟨hapart, hgroups⟩ := List.pairwise_cons.1 h
      rw [groupTag?_cons]
      by_cases hk : g.1.contains k
      · rw [if_pos hk, Option.some.injEq]
        constructor
        · rintro rfl
          exact ⟨g.1, List.mem_cons_self, hk⟩
        · rintro ⟨s, hs, hk'⟩
          rcases List.mem_cons.1 hs with rfl | hmem
          · rfl
          · exact absurd hk' (hapart _ hmem k hk)
      · rw [if_neg hk, ih hgroups]
        refine exists_congr fun s => and_congr_left fun hk' => ?_
        rw [List.mem_cons, or_iff_right]
        rintro rfl
        exact hk hk'

/-- After some of the groups, their kinds have their tags, and what was there before is still
there. -/
theorem foldlM_addGroup?_eq_some_iff : groups.foldlM addGroup? t = some u ↔
    groups.Pairwise AreApart ∧ (∀ g ∈ groups, ∀ k, g.1.contains k → t.get k = none) ∧
      ∀ k, u.get k = (groupTag? groups k).or (t.get k) := by
  induction groups generalizing t with
  | nil =>
      simp only [List.foldlM_nil, Option.pure_def, Option.some.injEq]
      constructor
      · rintro rfl
        exact ⟨.nil, by simp, fun k => rfl⟩
      · rintro ⟨-, -, hget⟩
        exact ext_get fun k => (hget k).symm
  | cons g groups ih =>
      rw [List.foldlM_cons, Option.bind_eq_bind, Option.bind_eq_some_iff, List.pairwise_cons,
        List.forall_mem_cons]
      constructor
      · rintro ⟨w, hw, hrun⟩
        obtain ⟨hfree, hget⟩ := addGroup?_eq_some_iff.1 hw
        obtain ⟨hapart, hfree', hget'⟩ := ih.1 hrun
        -- a kind of a later group has no tag now, so it is not one of this group
        have hnot : ∀ g' ∈ groups, ∀ k, g'.1.contains k → ¬g.1.contains k := by
          intro g' hg' k hk' hk
          have hnone := hfree' g' hg' k hk'
          rw [hget, if_pos hk] at hnone
          cases hnone
        refine ⟨⟨fun g' hg' k hk hk' => hnot g' hg' k hk' hk, hapart⟩, ⟨hfree, ?_⟩, ?_⟩
        · intro g' hg' k hk'
          have hnone := hfree' g' hg' k hk'
          rwa [hget, if_neg (hnot g' hg' k hk')] at hnone
        · intro k
          rw [hget', hget, groupTag?_cons]
          by_cases hk : g.1.contains k
          · have hnone : groupTag? groups k = none :=
              groupTag?_eq_none_iff.2 fun g' hg' hk' => hnot g' hg' k hk' hk
            simp [hk, hnone]
          · simp [hk]
      · rintro ⟨⟨hapart, hgroups⟩, ⟨hfree, hfree'⟩, hget⟩
        obtain ⟨w, hw, hgetw⟩ := exists_addGroup?_eq_some hfree
        refine ⟨w, hw, ih.2 ⟨hgroups, ?_, ?_⟩⟩
        · intro g' hg' k hk'
          rw [hgetw, if_neg fun hk => hapart g' hg' k hk hk', hfree' g' hg' k hk']
        · intro k
          rw [hget, hgetw, groupTag?_cons]
          by_cases hk : g.1.contains k
          · have hnone : groupTag? groups k = none :=
              groupTag?_eq_none_iff.2 fun g' hg' hk' => hapart g' hg' k hk hk'
            simp [hk, hnone]
          · simp [hk]

theorem build?_eq_some_iff :
    build? groups = some t ↔ groups.Pairwise AreApart ∧ ∀ k, t.get k = groupTag? groups k := by
  rw [build?, foldlM_addGroup?_eq_some_iff]
  simp only [get_blank, implies_true, true_and, Option.or_none]

theorem build?_eq_none_iff : build? groups = none ↔ ¬groups.Pairwise AreApart := by
  rw [Option.eq_none_iff_forall_ne_some]
  simp only [ne_eq, build?_eq_some_iff, not_and]
  constructor
  · intro h hapart
    exact h (ofFun (groupTag? groups)) hapart (get_ofFun _)
  · intro h t hapart
    exact absurd hapart h

theorem not_pairwise_areApart_iff : ¬groups.Pairwise AreApart ↔
    ∃ i j : Fin groups.length, i ≠ j ∧
      ∃ k, (groups.get i).1.contains k ∧ (groups.get j).1.contains k := by
  rw [List.pairwise_iff_get]
  simp only [AreApart, not_forall, not_not, exists_prop]
  constructor
  · rintro ⟨i, j, hlt, k, hi, hj⟩
    exact ⟨i, j, Fin.ne_of_lt hlt, k, hi, hj⟩
  · rintro ⟨i, j, hne, k, hi, hj⟩
    rcases Nat.lt_or_gt_of_ne (Fin.val_ne_of_ne hne) with hlt | hgt
    · exact ⟨i, j, hlt, k, hi, hj⟩
    · exact ⟨j, i, hgt, k, hj, hi⟩

theorem build?_perm {groups' : List (KindSet × Tag)} (h : groups.Perm groups') :
    build? groups' = build? groups := by
  have hsymm : ∀ {g g' : KindSet × Tag}, AreApart g g' → AreApart g' g :=
    fun hapart k hk hk' => hapart k hk' hk
  have hiff : groups'.Pairwise AreApart ↔ groups.Pairwise AreApart := (h.pairwise_iff hsymm).symm
  apply Option.ext
  intro t
  rw [build?_eq_some_iff, build?_eq_some_iff, hiff]
  refine and_congr_right fun hapart => forall_congr' fun k => ?_
  have htag : groupTag? groups' k = groupTag? groups k := by
    apply Option.ext
    intro tag
    rw [groupTag?_eq_some_iff hapart, groupTag?_eq_some_iff (hiff.2 hapart)]
    simp only [h.mem_iff]
  rw [htag]

/-- A table can be built if and only if no kind belongs to groups in two places, whatever their tags.
It gives each kind the tag of the only group that has it, and no tag to kinds in no group; the order
of the groups does not matter. -/
theorem build?_exact (groups : List (KindSet × Tag)) :
    (build? groups = none ↔ ∃ i j : Fin groups.length, i ≠ j ∧
      ∃ k, (groups.get i).1.contains k ∧ (groups.get j).1.contains k) ∧
    (∀ t, build? groups = some t →
      (∀ i k, (groups.get i).1.contains k →
        t.get k = some (groups.get i).2 ∧ ∀ j, (groups.get j).1.contains k → j = i) ∧
      ∀ k, (∀ i, ¬(groups.get i).1.contains k) → t.get k = none) ∧
    ∀ groups', groups.Perm groups' → build? groups' = build? groups := by
  refine ⟨build?_eq_none_iff.trans not_pairwise_areApart_iff, fun t ht => ⟨?_, ?_⟩,
    fun groups' h => build?_perm h⟩
  · intro i k hk
    obtain ⟨hapart, hget⟩ := build?_eq_some_iff.1 ht
    refine ⟨?_, fun j hj => ?_⟩
    · rw [hget, groupTag?_eq_some_iff hapart]
      exact ⟨_, groups.get_mem i, hk⟩
    · by_contra hne
      exact not_pairwise_areApart_iff.2 ⟨j, i, hne, k, hj, hk⟩ hapart
  · intro k hk
    rw [(build?_eq_some_iff.1 ht).2, groupTag?_eq_none_iff]
    intro g hg
    obtain ⟨i, rfl⟩ := List.get_of_mem hg
    exact hk i

/-- The groups of the default table are apart; a keyword once more among them is refused. -/
theorem build?_exact_standard :
    build? Table.groups.reverse = some standard ∧ standard.get .spaces = some .keyword ∧
      build? ((.ofList [.plus], .keyword) :: Table.groups) = none := by
  have hgroups : build? Table.groups = some standard := by decide +kernel
  obtain ⟨-, htags, hperm⟩ := build?_exact Table.groups
  have hspaces := ((htags standard hgroups).1 ⟨6, by decide⟩ .spaces (by decide)).1
  refine ⟨(hperm _ (List.reverse_perm _).symm).trans hgroups, hspaces, (build?_exact _).1.2 ?_⟩
  exact ⟨⟨0, by decide⟩, ⟨2, by decide⟩, by decide, .plus, by decide, by decide⟩

end Table

end TokenHighlight
