import TokenHighlight.Kind

/-!
# Sets of kinds

A `KindSet` is a word of 128 bits; the bit at the position of a kind says whether the kind belongs
to the set.  `contains_empty`, `contains_add` and `contains_union` say what the operations do to
membership.
-/

namespace TokenHighlight

/-- A set of token kinds. -/
structure KindSet where
  /-- The membership bits. -/
  bits : BitVec 128
  deriving DecidableEq

namespace KindSet

/-- The bit of a kind. -/
def bit (k : Kind) : BitVec 128 := BitVec.twoPow 128 k.index

/-- The set without members. -/
def empty : KindSet := ⟨0#128⟩

/-- The set with one more member. -/
def add (s : KindSet) (k : Kind) : KindSet := ⟨s.bits ||| bit k⟩

/-- The members of either set. -/
def union (s t : KindSet) : KindSet := ⟨s.bits ||| t.bits⟩

/-- Whether the two sets have no member in common. -/
def isDisjoint (s t : KindSet) : Bool := s.bits &&& t.bits == 0#128

/-- Whether a kind is a member. -/
def contains (s : KindSet) (k : Kind) : Bool := s.bits.getLsbD k.index

/-- The number of set bits. -/
def size (s : KindSet) : Nat := s.bits.cpop.toNat

/-- Whether the set has no member. -/
def isEmpty (s : KindSet) : Bool := s.bits == 0#128

/-- The members, in the order of the kinds. -/
def toList (s : KindSet) : List Kind := Kind.all.filter s.contains

/-- The set of the kinds in a list. -/
def ofList (ks : List Kind) : KindSet := ks.foldl add empty

/-- The names of the members, quoted, between braces. -/
def display (s : KindSet) : String :=
  "\x7b" ++ String.intercalate ", " (s.toList.map fun k => "\"" ++ k.name ++ "\"") ++ "\x7d"

/-! ## Membership -/

@[simp] theorem contains_empty (k : Kind) : empty.contains k = false := by
  simp [empty, contains]

theorem getLsbD_bit (k : Kind) (i : Nat) : (bit k).getLsbD i = decide (i = k.index) := by
  have := k.index_lt_count
  have hc : Kind.count = 104 := rfl
  simp only [bit, BitVec.getLsbD_twoPow]
  by_cases h : i = k.index
  · subst h; simp; omega
  · simp [h, Ne.symm h]

@[simp] theorem contains_add (s : KindSet) (k l : Kind) :
    (s.add k).contains l = (s.contains l || decide (l = k)) := by
  simp only [add, contains, BitVec.getLsbD_or, getLsbD_bit]
  by_cases h : l = k
  · simp [h]
  · have : l.index ≠ k.index := fun e => h (Kind.index_inj e)
    simp [h, this]

@[simp] theorem contains_union (s t : KindSet) (k : Kind) :
    (s.union t).contains k = (s.contains k || t.contains k) := by
  simp [union, contains]

@[simp] theorem mem_toList {s : KindSet} {k : Kind} : k ∈ s.toList ↔ s.contains k = true := by
  simp [toList, Kind.mem_all]

end KindSet

end TokenHighlight
