/-!
# Maps from names

A `NameMap` assigns values to finitely many names.  Its entries stand in the order of their names,
so two maps with the same entries are equal.
-/

namespace TokenHighlight

/-- A map from names to values. -/
structure NameMap (α : Type) where
  /-- The names and their values. -/
  entries : List (String × α)
  /-- The names are in strictly increasing order. -/
  sorted : entries.Pairwise fun x y => x.1 < y.1

namespace NameMap

variable {α : Type}

/-- The map without entries. -/
def empty : NameMap α := ⟨[], .nil⟩

/-- The entries with a value for one more name, or another value for a name. -/
def insertEntry (s : String) (a : α) : List (String × α) → List (String × α)
  | [] => [(s, a)]
  | e :: es =>
      if s < e.1 then (s, a) :: e :: es
      else if s = e.1 then (s, a) :: es
      else e :: insertEntry s a es

theorem mem_insertEntry {s : String} {a : α} {es : List (String × α)} {x : String × α}
    (h : x ∈ insertEntry s a es) : x = (s, a) ∨ x ∈ es := by
  induction es with
  | nil => simpa [insertEntry] using h
  | cons e es ih =>
      unfold insertEntry at h
      split at h
      · simpa using h
      · split at h
        · rcases List.mem_cons.1 h with h | h
          · exact Or.inl h
          · exact Or.inr (List.mem_cons_of_mem _ h)
        · rcases List.mem_cons.1 h with h | h
          · exact Or.inr (by simp [h])
          · rcases ih h with h | h
            · exact Or.inl h
            · exact Or.inr (List.mem_cons_of_mem _ h)

theorem lt_of_not_lt_of_ne {a b : String} (h : ¬a < b) (hne : a ≠ b) : b < a := by
  by_cases hba : b < a
  · exact hba
  · exact absurd (String.le_antisymm (String.not_lt.1 hba) (String.not_lt.1 h)) hne

theorem pairwise_insertEntry (s : String) (a : α) {es : List (String × α)}
    (h : es.Pairwise fun x y => x.1 < y.1) :
    (insertEntry s a es).Pairwise fun x y => x.1 < y.1 := by
  induction es with
  | nil => simp [insertEntry]
  | cons e es ih =>
      obtain ⟨he, hes⟩ := List.pairwise_cons.1 h
      unfold insertEntry
      split
      · rename_i hs
        refine List.pairwise_cons.2 ⟨fun x hx => ?_, h⟩
        rcases List.mem_cons.1 hx with rfl | hx
        · exact hs
        · exact String.lt_trans hs (he x hx)
      · rename_i hs
        split
        · rename_i heq
          exact List.pairwise_cons.2 ⟨fun x hx => by simpa [heq] using he x hx, hes⟩
        · rename_i hne
          refine List.pairwise_cons.2 ⟨fun x hx => ?_, ih hes⟩
          rcases mem_insertEntry hx with rfl | hx
          · exact lt_of_not_lt_of_ne hs hne
          · exact he x hx

/-- The map with a value for one more name, or another value for a name. -/
def insert (m : NameMap α) (s : String) (a : α) : NameMap α :=
  ⟨insertEntry s a m.entries, pairwise_insertEntry s a m.sorted⟩

/-- The value of a name. -/
def get? (m : NameMap α) (s : String) : Option α :=
  m.entries.lookup s

/-- The map of a list of names and values; the last value of a name counts. -/
def ofList (es : List (String × α)) : NameMap α :=
  es.foldl (fun m e => m.insert e.1 e.2) empty

/-- The number of names. -/
def size (m : NameMap α) : Nat := m.entries.length

theorem ext {m n : NameMap α} (h : m.entries = n.entries) : m = n := by
  cases m; cases n; cases h; rfl

end NameMap

end TokenHighlight
