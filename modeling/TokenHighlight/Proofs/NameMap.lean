import Mathlib.Data.List.Nodup
import TokenHighlight.NameMap

/-!
# Looking up names

In a list of names and values whose names differ, a look-up finds exactly the pairs of the list
(`lookup_eq_some_iff_mem`).  `NameMap.get?_filter` and `NameMap.get?_merge` say what leaving out
names and merging maps do to the value of every name; a map is rebuilt from its entries
(`NameMap.ofList_entries`).
-/

namespace TokenHighlight

variable {α : Type}

/-! ## Lists of names and values -/

theorem lookup_cons_eq_ite {κ : Type} [BEq κ] [LawfulBEq κ] [DecidableEq κ] (e : κ × α)
    (es : List (κ × α)) (s : κ) :
    (e :: es).lookup s = if s = e.1 then some e.2 else es.lookup s := by
  rw [List.lookup_cons]
  by_cases hs : s = e.1
  · simp [hs]
  · have hbeq : (s == e.1) = false := by simpa using hs
    simp only [hbeq, if_neg hs]

theorem lookup_eq_some_iff_mem {κ : Type} [BEq κ] [LawfulBEq κ] [DecidableEq κ]
    {es : List (κ × α)} (h : (es.map Prod.fst).Nodup) {s : κ} {a : α} :
    es.lookup s = some a ↔ (s, a) ∈ es := by
  induction es with
  | nil => simp
  | cons e es ih =>
      rw [List.map_cons, List.nodup_cons] at h
      rw [lookup_cons_eq_ite, List.mem_cons]
      by_cases hs : s = e.1
      · have hnot : (s, a) ∉ es := by
          intro hmem
          exact h.1 (hs ▸ List.mem_map_of_mem hmem)
        simp [hs, hs ▸ hnot, Prod.ext_iff, eq_comm]
      · simp [hs, ih h.2, Prod.ext_iff]

theorem eq_of_mem_of_mem {es : List (String × α)} (h : (es.map Prod.fst).Nodup) {s : String}
    {a b : α} (ha : (s, a) ∈ es) (hb : (s, b) ∈ es) : a = b := by
  rw [← lookup_eq_some_iff_mem h] at ha hb
  exact Option.some.inj (ha.symm.trans hb)

theorem lookup_eq_none_iff_not_mem {κ : Type} [BEq κ] [LawfulBEq κ] {es : List (κ × α)} {s : κ} :
    es.lookup s = none ↔ s ∉ es.map Prod.fst := by
  simp only [List.lookup_eq_none_iff, bne_iff_ne, List.mem_map, not_exists, not_and]
  exact forall₂_congr fun e _ => ne_comm

namespace NameMap

/-! ## Values of names -/

theorem nodup_names (m : NameMap α) : (m.entries.map Prod.fst).Nodup := by
  rw [List.Nodup, List.pairwise_map]
  exact m.sorted.imp fun hlt heq => absurd (heq ▸ hlt) (String.lt_irrefl _)

theorem get?_eq_some_iff {m : NameMap α} {s : String} {a : α} :
    m.get? s = some a ↔ (s, a) ∈ m.entries :=
  lookup_eq_some_iff_mem m.nodup_names

/-- A map is determined by the values of the names. -/
theorem ext_get? {m n : NameMap α} (h : ∀ s, m.get? s = n.get? s) : m = n := by
  have hmem : ∀ e, e ∈ m.entries ↔ e ∈ n.entries := fun e => by
    rw [← get?_eq_some_iff, h, get?_eq_some_iff]
  have hperm : m.entries.Perm n.entries :=
    (List.perm_ext_iff_of_nodup (.of_map _ m.nodup_names) (.of_map _ n.nodup_names)).2 hmem
  refine ext (hperm.eq_of_pairwise (fun x y _ _ hxy hyx => ?_) m.sorted n.sorted)
  exact absurd (String.lt_trans hxy hyx) (String.lt_irrefl _)

@[simp] theorem get?_empty (s : String) : (empty : NameMap α).get? s = none := rfl

theorem lookup_insertEntry (s : String) (a : α) (es : List (String × α)) (r : String) :
    (insertEntry s a es).lookup r = if r = s then some a else es.lookup r := by
  induction es with
  | nil => rw [insertEntry, lookup_cons_eq_ite]
  | cons e es ih =>
      unfold insertEntry
      by_cases hlt : s < e.1
      · rw [if_pos hlt, lookup_cons_eq_ite]
      · rw [if_neg hlt]
        by_cases heq : s = e.1
        · rw [if_pos heq, lookup_cons_eq_ite, lookup_cons_eq_ite]
          by_cases hr : r = s <;> simp [hr, ← heq]
        · -- the name of the first entry is not the one that is inserted
          have hne : e.1 ≠ s := fun h => heq h.symm
          rw [if_neg heq, lookup_cons_eq_ite, lookup_cons_eq_ite, ih]
          by_cases hr : r = e.1 <;> simp [hr, hne]

theorem get?_insert (m : NameMap α) (s : String) (a : α) (r : String) :
    (m.insert s a).get? r = if r = s then some a else m.get? r :=
  lookup_insertEntry s a m.entries r

/-! ## Entries in order -/

theorem insertEntry_of_forall_lt {es : List (String × α)} {s : String} (h : ∀ e ∈ es, e.1 < s)
    (a : α) : insertEntry s a es = es ++ [(s, a)] := by
  induction es with
  | nil => rfl
  | cons e es ih =>
      have hlt : e.1 < s := h e List.mem_cons_self
      have hnot : ¬s < e.1 := fun hgt => String.lt_irrefl _ (String.lt_trans hlt hgt)
      have hne : s ≠ e.1 := fun heq => String.lt_irrefl _ (heq ▸ hlt)
      rw [insertEntry, if_neg hnot, if_neg hne, ih fun x hx => h x (List.mem_cons_of_mem e hx)]
      rfl

theorem entries_foldl_insert (m : NameMap α) {es : List (String × α)}
    (h : (m.entries ++ es).Pairwise fun x y => x.1 < y.1) :
    (es.foldl (fun m e => m.insert e.1 e.2) m).entries = m.entries ++ es := by
  induction es generalizing m with
  | nil => simp
  | cons e es ih =>
      have hlt : ∀ x ∈ m.entries, x.1 < e.1 := fun x hx =>
        (List.pairwise_append.1 h).2.2 x hx e List.mem_cons_self
      have hinsert : (m.insert e.1 e.2).entries = m.entries ++ [e] :=
        insertEntry_of_forall_lt hlt e.2
      rw [List.foldl_cons, ih, hinsert, List.append_assoc, List.singleton_append]
      rwa [hinsert, List.append_assoc, List.singleton_append]

theorem ofList_entries (m : NameMap α) : ofList m.entries = m :=
  ext (entries_foldl_insert empty m.sorted)

/-! ## Leaving out names -/

/-- The map of the names that are wanted. -/
def filter (m : NameMap α) (wanted : String → Bool) : NameMap α :=
  ⟨m.entries.filter fun e => wanted e.1, m.sorted.filter _⟩

theorem get?_filter (m : NameMap α) (wanted : String → Bool) (s : String) :
    (m.filter wanted).get? s = if wanted s then m.get? s else none := by
  apply Option.ext
  intro a
  rw [get?_eq_some_iff, filter, List.mem_filter]
  by_cases hs : wanted s
  · simp [hs, get?_eq_some_iff]
  · simp [hs]

/-! ## Merging -/

/-- The map with the names of both maps; the second map counts where both have a value. -/
def merge (m n : NameMap α) : NameMap α :=
  n.entries.foldl (fun m e => m.insert e.1 e.2) m

theorem get?_foldl_insert {es : List (String × α)} (h : (es.map Prod.fst).Nodup) (m : NameMap α)
    (s : String) : (es.foldl (fun m e => m.insert e.1 e.2) m).get? s =
      (es.lookup s).or (m.get? s) := by
  induction es generalizing m with
  | nil => rfl
  | cons e es ih =>
      rw [List.map_cons, List.nodup_cons] at h
      rw [List.foldl_cons, ih h.2, get?_insert, lookup_cons_eq_ite]
      by_cases hs : s = e.1
      · have hnone : es.lookup e.1 = none := lookup_eq_none_iff_not_mem.2 h.1
        simp [hs, hnone]
      · simp [hs]

theorem get?_ofList {es : List (String × α)} (h : (es.map Prod.fst).Nodup) (s : String) :
    (ofList es).get? s = es.lookup s := by
  rw [ofList, get?_foldl_insert h, get?_empty, Option.or_none]

theorem get?_merge (m n : NameMap α) (s : String) :
    (m.merge n).get? s = (n.get? s).or (m.get? s) :=
  get?_foldl_insert n.nodup_names m s

end NameMap

end TokenHighlight
