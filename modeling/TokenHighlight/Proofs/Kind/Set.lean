import Mathlib.Data.Finset.Card
import Mathlib.Data.Finset.Disjoint
import TokenHighlight.Kind.Set

/-!
# Sets of kinds as finite sets

`KindSet.Represents s M` says that the bits of `s` stand for the members of `M` and nothing else.
`add` and `union` keep it, so it holds of every set that a `KindSet.Program` makes, and it decides
the answer to every question about a set (`Program.sets_refine_members`).
-/

namespace TokenHighlight

namespace Kind

theorem map_index_all : all.map index = List.range count := by
  decide

theorem pairwise_index_all : all.Pairwise fun k l => k.index < l.index := by
  rw [← List.pairwise_map, map_index_all]
  exact List.pairwise_lt_range

end Kind

namespace KindSet

/-- The bits of a set are exactly the positions of the members of a finite set. -/
def Represents (s : KindSet) (M : Finset Kind) : Prop :=
  ∀ i, s.bits.getLsbD i = true ↔ ∃ k ∈ M, k.index = i

variable {s t : KindSet} {M N : Finset Kind}

theorem ext (h : s.bits = t.bits) : s = t := by
  cases s
  cases t
  cases h
  rfl

/-! ## Operations -/

theorem represents_empty : empty.Represents ∅ := by
  intro i
  simp [empty]

theorem getLsbD_bit_iff (k : Kind) (i : Nat) : (bit k).getLsbD i = true ↔ k.index = i := by
  rw [getLsbD_bit, decide_eq_true_eq, eq_comm]

theorem Represents.add (h : s.Represents M) (k : Kind) : (s.add k).Represents (insert k M) := by
  intro i
  have hs := h i
  have hk := getLsbD_bit_iff k i
  rw [KindSet.add, BitVec.getLsbD_or, Bool.or_eq_true, hs, hk, Finset.exists_mem_insert, or_comm]

theorem Represents.union (hs : s.Represents M) (ht : t.Represents N) :
    (s.union t).Represents (M ∪ N) := by
  intro i
  rw [KindSet.union, BitVec.getLsbD_or, Bool.or_eq_true, hs i, ht i]
  constructor
  · rintro (⟨k, hk, hi⟩ | ⟨k, hk, hi⟩)
    · exact ⟨k, Finset.mem_union_left N hk, hi⟩
    · exact ⟨k, Finset.mem_union_right M hk, hi⟩
  · rintro ⟨k, hk, hi⟩
    rcases Finset.mem_union.1 hk with hk | hk
    · exact Or.inl ⟨k, hk, hi⟩
    · exact Or.inr ⟨k, hk, hi⟩

/-! ## Questions -/

theorem Represents.contains_iff (h : s.Represents M) (k : Kind) : s.contains k = true ↔ k ∈ M := by
  rw [contains, h k.index]
  constructor
  · rintro ⟨l, hl, hi⟩
    rwa [← Kind.index_inj hi]
  · intro hk
    exact ⟨k, hk, rfl⟩

theorem Represents.mem_toList (h : s.Represents M) (k : Kind) : k ∈ s.toList ↔ k ∈ M := by
  rw [KindSet.mem_toList]
  exact h.contains_iff k

theorem pairwise_index_toList (s : KindSet) : s.toList.Pairwise fun k l => k.index < l.index :=
  Kind.pairwise_index_all.filter _

theorem nodup_toList (s : KindSet) : s.toList.Nodup := by
  refine s.pairwise_index_toList.imp ?_
  rintro k _ hlt rfl
  exact absurd hlt (Nat.lt_irrefl _)

/-- Equal sets have equal bits: there is no other way to represent the same kinds. -/
theorem Represents.eq_iff (hs : s.Represents M) (ht : t.Represents N) : s = t ↔ M = N := by
  constructor
  · rintro rfl
    ext k
    rw [← hs.contains_iff, ht.contains_iff]
  · rintro rfl
    apply KindSet.ext
    apply BitVec.eq_of_getLsbD_eq
    intro i _
    rw [Bool.eq_iff_iff, hs i, ht i]

theorem Represents.isEmpty_iff (h : s.Represents M) : s.isEmpty = true ↔ M = ∅ := by
  have hempty : s.isEmpty = true ↔ s = empty := by
    rw [isEmpty, beq_iff_eq]
    constructor
    · intro hbits
      exact KindSet.ext hbits
    · rintro rfl
      rfl
  rw [hempty, h.eq_iff represents_empty]

theorem Represents.isDisjoint_iff (hs : s.Represents M) (ht : t.Represents N) :
    s.isDisjoint t = true ↔ Disjoint M N := by
  rw [isDisjoint, beq_iff_eq, Finset.disjoint_left]
  constructor
  · intro h k hM hN
    have hand : (s.bits &&& t.bits).getLsbD k.index = true := by
      rw [BitVec.getLsbD_and, Bool.and_eq_true]
      exact ⟨(hs _).2 ⟨k, hM, rfl⟩, (ht _).2 ⟨k, hN, rfl⟩⟩
    rw [h, BitVec.getLsbD_zero] at hand
    cases hand
  · intro h
    apply BitVec.eq_of_getLsbD_eq
    intro i _
    rw [BitVec.getLsbD_zero, ← Bool.not_eq_true, BitVec.getLsbD_and, Bool.and_eq_true, hs i, ht i]
    rintro ⟨⟨k, hM, hk⟩, l, hN, hl⟩
    have hkl : k = l := Kind.index_inj (hk.trans hl.symm)
    exact h hM (hkl ▸ hN)

/-! ## The number of members -/

theorem cpopNatRec_eq_countP {w : Nat} (x : BitVec w) (n : Nat) :
    x.cpopNatRec n 0 = (List.range n).countP x.getLsbD := by
  induction n with
  | zero => rfl
  | succ n ih =>
      rw [BitVec.cpopNatRec_succ, BitVec.cpopNatRec_add, ih, List.range_succ, List.countP_append]
      cases hn : x.getLsbD n <;> simp [hn]

theorem size_eq_countP (s : KindSet) : s.size = (List.range 128).countP s.bits.getLsbD := by
  rw [size, BitVec.toNat_cpop, cpopNatRec_eq_countP]

/-- The bits behind the last kind are not set, so every bit that counts is that of a member. -/
theorem Represents.size_eq (h : s.Represents M) : s.size = M.card := by
  have hsplit : List.range 128 = Kind.all.map Kind.index ++ List.range' 104 24 := by
    rw [Kind.map_index_all]
    rfl
  have hbehind : (List.range' 104 24).countP s.bits.getLsbD = 0 := by
    rw [List.countP_eq_zero]
    intro i hi
    rw [h i]
    rintro ⟨k, -, rfl⟩
    have hlt : k.index < 104 := k.index_lt_count
    have hle := (List.mem_range'_1.1 hi).1
    omega
  have hlist : s.toList.length = M.card := by
    rw [← List.toFinset_card_of_nodup s.nodup_toList]
    congr 1
    ext k
    rw [List.mem_toFinset, h.mem_toList]
  rw [size_eq_countP, hsplit, List.countP_append, hbehind, Nat.add_zero, List.countP_map, ← hlist,
    toList, List.countP_eq_length_filter]
  rfl

/-! ## Programs -/

/-- A program that makes sets of kinds, one with each operation: the empty set, a set made before
with one more kind, or the union of two sets made before. -/
inductive Program : Nat → Type
  | start : Program 0
  | new {n : Nat} (p : Program n) : Program (n + 1)
  | add {n : Nat} (p : Program n) (i : Fin n) (k : Kind) : Program (n + 1)
  | union {n : Nat} (p : Program n) (i j : Fin n) : Program (n + 1)

namespace Program

/-- The sets that a program makes. -/
def sets : {n : Nat} → Program n → Vector KindSet n
  | _, start => #v[]
  | _, new p => p.sets.push empty
  | _, add p i k => p.sets.push (p.sets[i].add k)
  | _, union p i j => p.sets.push (p.sets[i].union p.sets[j])

/-- The kinds that have been added to each of the sets that a program makes. -/
def members : {n : Nat} → Program n → Vector (Finset Kind) n
  | _, start => #v[]
  | _, new p => p.members.push ∅
  | _, add p i k => p.members.push (insert k p.members[i])
  | _, union p i j => p.members.push (p.members[i] ∪ p.members[j])

theorem represents_push {n : Nat} {ss : Vector KindSet n} {Ms : Vector (Finset Kind) n}
    (hall : ∀ i : Fin n, ss[i].Represents Ms[i]) (hnew : s.Represents M) (i : Fin (n + 1)) :
    ((ss.push s)[i]).Represents (Ms.push M)[i] := by
  simp only [Fin.getElem_fin, Vector.getElem_push]
  by_cases hi : i.val < n
  · rw [dif_pos hi, dif_pos hi]
    exact hall ⟨i.val, hi⟩
  · rw [dif_neg hi, dif_neg hi]
    exact hnew

theorem represents {n : Nat} (p : Program n) (i : Fin n) : p.sets[i].Represents p.members[i] := by
  induction p with
  | start => exact i.elim0
  | new p ih => exact represents_push ih represents_empty i
  | add p j k ih => exact represents_push ih ((ih j).add k) i
  | union p j l ih => exact represents_push ih ((ih j).union (ih l)) i

/-- The sets that programs make answer every question like the finite sets of the kinds that have
been added to them, whatever the order and the repetition of the operations. -/
theorem sets_refine_members {m n : Nat} (p : Program m) (q : Program n) (i : Fin m) (j : Fin n) :
    (∀ k, p.sets[i].contains k = true ↔ k ∈ p.members[i]) ∧
    p.sets[i].size = p.members[i].card ∧
    (p.sets[i].isEmpty = true ↔ p.members[i] = ∅) ∧
    (∀ k, k ∈ p.sets[i].toList ↔ k ∈ p.members[i]) ∧
    p.sets[i].toList.Pairwise (fun k l => k.index < l.index) ∧
    (p.sets[i].isDisjoint q.sets[j] = true ↔ Disjoint p.members[i] q.members[j]) ∧
    ((p.sets[i] == q.sets[j]) = true ↔ p.members[i] = q.members[j]) ∧
    ∀ b, p.sets[i].bits.getLsbD b = true ↔ ∃ k ∈ p.members[i], k.index = b := by
  have hp := p.represents i
  have hq := q.represents j
  refine ⟨hp.contains_iff, hp.size_eq, hp.isEmpty_iff, hp.mem_toList, pairwise_index_toList _,
    hp.isDisjoint_iff hq, ?_, hp⟩
  rw [beq_iff_eq]
  exact hp.eq_iff hq

end Program

end KindSet

end TokenHighlight
