import Mathlib.Tactic.SplitIfs
import TokenHighlight.Text.Utf8

/-!
# The order of bytes

Texts are compared character by character, their UTF-8 forms byte by byte.  Both orders are the same
(`lt_iff_bytes_lt`), since the form of a lesser character is the lesser one at the first byte where
the two differ, whatever follows (`encode_lt_encode`).
-/

namespace TokenHighlight

namespace Text

/-- The bytes of a text in UTF-8. -/
def bytes (s : String) : List UInt8 := s.toByteArray.data.toList

theorem bytes_eq_flatMap (s : String) : bytes s = s.toList.flatMap String.utf8EncodeChar := by
  rw [bytes, ← String.utf8Encode_toList, List.utf8Encode, List.toList_data_toByteArray]

/-! ## Characters -/

theorem cons_lt_cons_of_toNat {a b : Nat} {xs ys : List UInt8} (hab : a ≤ b) (hb : b < 256)
    (h : a = b → xs < ys) : UInt8.ofNat a :: xs < UInt8.ofNat b :: ys := by
  rw [List.cons_lt_cons_iff]
  rcases Nat.lt_or_eq_of_le hab with hlt | rfl
  · left
    rwa [UInt8.lt_iff_toNat_lt, UInt8.toNat_ofNat', UInt8.toNat_ofNat', Nat.mod_eq_of_lt hb,
      Nat.mod_eq_of_lt (Nat.lt_trans hlt hb)]
  · exact Or.inr ⟨rfl, h rfl⟩

theorem val_toNat_lt (c : Char) : c.val.toNat < 1114112 := by
  rcases c.valid with h | h
  · exact Nat.lt_trans h (by decide)
  · exact h.2

theorem encode_lt_encode {c d : Char} (h : c < d) (xs ys : List UInt8) :
    String.utf8EncodeChar c ++ xs < String.utf8EncodeChar d ++ ys := by
  have hlt : c.val.toNat < d.val.toNat := h
  have hd := val_toNat_lt d
  simp only [String.utf8EncodeChar]
  generalize c.val.toNat = v at *
  generalize d.val.toNat = w at *
  -- the greater character has no shorter form
  split_ifs <;> try omega
  all_goals simp only [List.cons_append, List.nil_append]
  -- a longer form begins with a greater byte, and single bytes differ
  all_goals try exact cons_lt_cons_of_toNat (by omega) (by omega) (by omega)
  -- in forms of the same length, the bytes before the first difference leave less to compare
  · refine cons_lt_cons_of_toNat (by omega) (by omega) fun _ => ?_
    exact cons_lt_cons_of_toNat (by omega) (by omega) (by omega)
  · refine cons_lt_cons_of_toNat (by omega) (by omega) fun _ => ?_
    refine cons_lt_cons_of_toNat (by omega) (by omega) fun _ => ?_
    exact cons_lt_cons_of_toNat (by omega) (by omega) (by omega)
  · refine cons_lt_cons_of_toNat (by omega) (by omega) fun _ => ?_
    refine cons_lt_cons_of_toNat (by omega) (by omega) fun _ => ?_
    refine cons_lt_cons_of_toNat (by omega) (by omega) fun _ => ?_
    exact cons_lt_cons_of_toNat (by omega) (by omega) (by omega)

/-! ## Texts -/

theorem flatMap_encode_lt {cs ds : List Char} (h : cs < ds) :
    cs.flatMap String.utf8EncodeChar < ds.flatMap String.utf8EncodeChar := by
  induction ds generalizing cs with
  | nil => exact absurd h (List.not_lt_nil cs)
  | cons d ds ih =>
      rw [List.flatMap_cons]
      cases cs with
      | nil =>
          have hne : String.utf8EncodeChar d ≠ [] := String.utf8EncodeChar_ne_nil
          obtain ⟨b, bs, hform⟩ := List.exists_cons_of_ne_nil hne
          rw [hform, List.cons_append]
          exact List.nil_lt_cons b _
      | cons c cs =>
          rw [List.flatMap_cons]
          rcases List.cons_lt_cons_iff.1 h with hlt | ⟨rfl, hrest⟩
          · exact encode_lt_encode hlt _ _
          · exact List.append_left_lt (ih hrest)

theorem bytes_lt_of_lt {s t : String} (h : s < t) : bytes s < bytes t := by
  rw [bytes_eq_flatMap, bytes_eq_flatMap]
  exact flatMap_encode_lt h

theorem lt_iff_bytes_lt {s t : String} : s < t ↔ bytes s < bytes t := by
  refine ⟨bytes_lt_of_lt, fun h => ?_⟩
  by_cases hst : s < t
  · exact hst
  · by_cases hts : t < s
    · exact absurd h (List.lt_asymm (bytes_lt_of_lt hts))
    · obtain rfl := String.le_antisymm (String.not_lt.1 hst) (String.not_lt.1 hts)
      exact absurd h (List.lt_irrefl _)

theorem le_iff_bytes_le {s t : String} : s ≤ t ↔ bytes s ≤ bytes t := by
  rw [← String.not_lt, lt_iff_bytes_lt, List.not_lt]

end Text

end TokenHighlight
