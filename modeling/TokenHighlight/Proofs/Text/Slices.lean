import Mathlib.Tactic.SplitIfs
import TokenHighlight.Text.Utf8

/-!
# Slices of a text

An offset is a boundary of a text (`IsBoundary`) if it lies between two characters or at an end, and
a piece is the slice of a text between two offsets (`IsSlice`) if it stands there.  `splitAt?` cuts
exactly at the boundaries and `slice?` finds exactly the slices.  For a `String`, offsets and
boundaries are those of its UTF-8 bytes (`byteLength_toList`, `isBoundary_toList_iff`).
-/

namespace TokenHighlight

namespace Text

theorem byteLength_eq_utf8ByteSize_ofList (cs : List Char) :
    byteLength cs = (String.ofList cs).utf8ByteSize := by
  induction cs with
  | nil => rfl
  | cons c cs ih =>
      have hcons : String.ofList (c :: cs) = String.singleton c ++ String.ofList cs := by
        rw [String.singleton_eq_ofList, ← String.ofList_append, List.singleton_append]
      rw [hcons, String.utf8ByteSize_append, String.utf8ByteSize_singleton, byteLength_cons, ih]

theorem byteLength_toList (s : String) : byteLength s.toList = s.utf8ByteSize := by
  rw [byteLength_eq_utf8ByteSize_ofList, String.ofList_toList]

/-! ## Boundaries -/

/-- Some characters of a text end at byte `n`. -/
def IsBoundary (cs : List Char) (n : Nat) : Prop :=
  ∃ before after, before ++ after = cs ∧ byteLength before = n

/-- The boundaries are the offsets at which the UTF-8 form can be cut. -/
theorem isBoundary_toList_iff (s : String) (n : Nat) :
    IsBoundary s.toList n ↔ (String.Pos.Raw.mk n).IsValid s := by
  rw [String.Pos.Raw.isValid_iff_exists_append]
  constructor
  · rintro ⟨before, after, h, rfl⟩
    refine ⟨String.ofList before, String.ofList after, ?_, ?_⟩
    · rw [← String.ofList_append, h, String.ofList_toList]
    · rw [byteLength_eq_utf8ByteSize_ofList]
      rfl
  · rintro ⟨s₁, s₂, rfl, h⟩
    refine ⟨s₁.toList, s₂.toList, String.toList_append.symm, ?_⟩
    rw [byteLength_toList]
    exact (congrArg String.Pos.Raw.byteIdx h).symm

theorem isBoundary_zero (cs : List Char) : IsBoundary cs 0 := ⟨[], cs, rfl, rfl⟩

theorem IsBoundary.le_byteLength {cs : List Char} {n : Nat} (h : IsBoundary cs n) :
    n ≤ byteLength cs := by
  obtain ⟨before, after, rfl, rfl⟩ := h
  rw [byteLength_append]
  omega

theorem exists_splitAt?_iff {cs : List Char} {n : Nat} :
    (∃ before after, splitAt? cs n = some (before, after)) ↔ IsBoundary cs n := by
  simp only [splitAt?_eq_some_iff, IsBoundary]

/-- A text is cut in one way at most at an offset. -/
theorem append_inj_of_byteLength_eq {a b c d : List Char} (h : a ++ b = c ++ d)
    (hl : byteLength a = byteLength c) : a = c ∧ b = d := by
  have hab := splitAt?_eq_some_iff.2 ⟨h, hl⟩
  rw [splitAt?_eq_some_iff.2 ⟨rfl, rfl⟩] at hab
  simpa [eq_comm] using hab

/-- The boundaries after a cut are the boundaries of the rest. -/
theorem isBoundary_append_iff {before rest : List Char} {n : Nat} (h : byteLength before ≤ n) :
    IsBoundary (before ++ rest) n ↔ IsBoundary rest (n - byteLength before) := by
  constructor
  · rintro ⟨a, b, hab, rfl⟩
    rcases List.append_eq_append_iff.1 hab with ⟨d, rfl, rfl⟩ | ⟨d, rfl, rfl⟩
    · -- the cut lies inside `before`, hence at its end
      rw [byteLength_append] at h ⊢
      have hd : byteLength a - (byteLength a + byteLength d) = 0 := by omega
      rw [hd]
      exact isBoundary_zero _
    · exact ⟨d, b, rfl, by rw [byteLength_append]; omega⟩
  · rintro ⟨a, b, rfl, ha⟩
    exact ⟨before ++ a, b, by rw [List.append_assoc], by rw [byteLength_append]; omega⟩

/-! ## Slices -/

/-- A piece of a text stands between two byte offsets. -/
def IsSlice (cs : List Char) (start stop : Nat) (piece : List Char) : Prop :=
  ∃ before after, before ++ (piece ++ after) = cs ∧ byteLength before = start ∧
    start + byteLength piece = stop

theorem slice?_eq_some_iff {cs piece : List Char} {start stop : Nat} :
    slice? cs start stop = some piece ↔ IsSlice cs start stop piece := by
  unfold slice?
  constructor
  · intro h
    split_ifs at h with hlt
    split at h
    · cases h
    · rename_i before rest hb
      obtain ⟨⟨p, after⟩, hp, rfl⟩ := Option.map_eq_some_iff.1 h
      obtain ⟨rfl, hbefore⟩ := splitAt?_eq_some_iff.1 hb
      obtain ⟨rfl, hpiece⟩ := splitAt?_eq_some_iff.1 hp
      refine ⟨before, after, rfl, hbefore, ?_⟩
      simp only [hpiece]
      omega
  · rintro ⟨before, after, rfl, rfl, rfl⟩
    rw [if_neg (by omega), splitAt?_eq_some_iff.2 ⟨rfl, rfl⟩]
    simp only [Nat.add_sub_cancel_left]
    rw [splitAt?_eq_some_iff.2 ⟨rfl, rfl⟩]
    rfl

theorem IsSlice.unique {cs p q : List Char} {start stop : Nat} (hp : IsSlice cs start stop p)
    (hq : IsSlice cs start stop q) : p = q := by
  rw [← slice?_eq_some_iff] at hp hq
  exact Option.some.inj (hp.symm.trans hq)

/-- There is a slice between two boundaries in order, and only there. -/
theorem exists_isSlice_iff {cs : List Char} {start stop : Nat} :
    (∃ piece, IsSlice cs start stop piece) ↔
      start ≤ stop ∧ IsBoundary cs start ∧ IsBoundary cs stop := by
  constructor
  · rintro ⟨piece, before, after, rfl, rfl, rfl⟩
    refine ⟨by omega, ⟨before, piece ++ after, rfl, rfl⟩, before ++ piece, after, ?_, ?_⟩
    · rw [List.append_assoc]
    · rw [byteLength_append]
  · rintro ⟨hle, ⟨before, rest, rfl, rfl⟩, hstop⟩
    obtain ⟨piece, after, rfl, hpiece⟩ := (isBoundary_append_iff hle).1 hstop
    exact ⟨piece, before, after, rfl, rfl, by omega⟩

theorem slice?_eq_none_iff {cs : List Char} {start stop : Nat} :
    slice? cs start stop = none ↔ ¬(start ≤ stop ∧ IsBoundary cs start ∧ IsBoundary cs stop) := by
  rw [← exists_isSlice_iff]
  cases h : slice? cs start stop with
  | none => simp [← slice?_eq_some_iff, h]
  | some p => simp [← slice?_eq_some_iff, h]

/-- Slices that touch make one slice. -/
theorem IsSlice.append {cs p q : List Char} {start mid stop : Nat} (hp : IsSlice cs start mid p)
    (hq : IsSlice cs mid stop q) : IsSlice cs start stop (p ++ q) := by
  obtain ⟨before, after, rfl, rfl, rfl⟩ := hp
  obtain ⟨before', after', h, hmid, rfl⟩ := hq
  rw [← List.append_assoc before] at h
  obtain ⟨rfl, rfl⟩ := append_inj_of_byteLength_eq h (by rw [hmid, byteLength_append])
  refine ⟨before, after', by simp only [List.append_assoc], rfl, ?_⟩
  rw [byteLength_append]
  omega

theorem isSlice_rest {before rest : List Char} :
    IsSlice (before ++ rest) (byteLength before) (byteLength (before ++ rest)) rest :=
  ⟨before, [], by rw [List.append_nil], rfl, by rw [byteLength_append]⟩

end Text

end TokenHighlight
