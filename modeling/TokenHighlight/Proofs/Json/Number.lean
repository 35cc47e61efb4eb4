import Mathlib.Data.Nat.Basic
import TokenHighlight.Json.Value
import TokenHighlight.Proofs.Json.Text
import TokenHighlight.Proofs.Number.Decimal

/-!
# JSON integers

An integer in its canonical decimal form is read as what it is if it fits into 64 bits, with a sign
if it has one (`readValue_ofInt`).  An integer of any other size is read as a floating point number
or is too large even for that, but it is never read as an integer (`readValue_ofInt_of_not_fits`).
-/

namespace TokenHighlight

namespace Json

open Decimal

variable {n : Nat} {ds rest : List Char} {negative : Bool}

/-- No number goes on here. -/
def StopsNumber (rest : List Char) : Prop :=
  ∀ c ∈ rest.head?, isDigit c = false ∧ c ≠ '.' ∧ c ≠ 'e' ∧ c ≠ 'E'

/-! ## Runs of digits -/

theorem le_accumulate (n : Nat) (cs : List Char) : n ≤ accumulate n cs := by
  induction cs generalizing n with
  | nil => exact le_rfl
  | cons c cs ih =>
      have hstep : 10 * n + value c ≤ accumulate n (c :: cs) := ih _
      omega

theorem StopsNumber.takeDigits_eq (h : StopsNumber rest) (n : Nat) :
    takeDigits n rest = (n, 0, rest) := by
  cases rest with
  | nil => rfl
  | cons c rest =>
      have hc := (h c rfl).1
      simp [takeDigits, hc]

theorem takeDigits_append (hds : ∀ c ∈ ds, isDigit c) (hrest : StopsNumber rest)
    (hfits : accumulate n ds ≤ maxWord) :
    takeDigits n (ds ++ rest) = (accumulate n ds, ds.length, rest) := by
  induction ds generalizing n with
  | nil => exact hrest.takeDigits_eq n
  | cons d ds ih =>
      rw [List.forall_mem_cons] at hds
      have hstep : 10 * n + value d ≤ maxWord :=
        Nat.le_trans (le_accumulate _ ds) hfits
      simp only [List.cons_append, takeDigits, hds.1, hstep, decide_true, Bool.and_self, if_true,
        ih hds.2 hfits]
      rfl

/-- Where the digits stand for too great a number, some of them are not taken. -/
theorem exists_takeDigits_append_eq (hds : ∀ c ∈ ds, isDigit c) (hn : n ≤ maxWord)
    (hlarge : maxWord < accumulate n ds) (rest : List Char) :
    ∃ m count left, takeDigits n (ds ++ rest) = (m, count, left ++ rest) ∧ left ≠ [] ∧
      ∀ c ∈ left, isDigit c := by
  induction ds generalizing n with
  | nil => exact absurd hlarge (Nat.not_lt.2 hn)
  | cons d ds ih =>
      have hdigits := hds
      rw [List.forall_mem_cons] at hds
      by_cases hstep : 10 * n + value d ≤ maxWord
      · obtain ⟨m, count, left, htake, hne, hleft⟩ := ih hds.2 hstep hlarge
        refine ⟨m, count + 1, left, ?_, hne, hleft⟩
        simp [takeDigits, hds.1, hstep, htake]
      · refine ⟨n, 0, d :: ds, ?_, List.cons_ne_nil _ _, hdigits⟩
        simp [takeDigits, hstep]

theorem countDigits_append_ne_zero (hne : ds ≠ []) (hds : ∀ c ∈ ds, isDigit c) (rest : List Char) :
    countDigits (ds ++ rest) ≠ 0 := by
  obtain ⟨d, ds, rfl⟩ := List.exists_cons_of_ne_nil hne
  have hd : isDigit d := hds d List.mem_cons_self
  simp [countDigits, hd]

theorem StopsNumber.skipDigits_eq (h : StopsNumber rest) : skipDigits rest = rest := by
  cases rest with
  | nil => rfl
  | cons c rest => simp [skipDigits, (h c rfl).1]

theorem StopsNumber.countDigits_eq (h : StopsNumber rest) : countDigits rest = 0 := by
  cases rest with
  | nil => rfl
  | cons c rest => simp [countDigits, (h c rfl).1]

theorem skipDigits_append (hds : ∀ c ∈ ds, isDigit c) (hrest : StopsNumber rest) :
    skipDigits (ds ++ rest) = rest := by
  rw [skipDigits, List.dropWhile_append_of_pos hds]
  exact hrest.skipDigits_eq

/-! ## The end of a number -/

theorem StopsNumber.readTail_zero (h : StopsNumber rest) (negative : Bool) (digits : Nat) :
    readTail negative digits 0 rest = readTail.integer negative digits rest := by
  cases rest with
  | nil => rfl
  | cons c rest =>
      obtain ⟨-, hpoint, he, hE⟩ := h c rfl
      simp [readTail, he, hE]

theorem StopsNumber.readTail_of_ne_zero (h : StopsNumber rest) (negative : Bool) (digits : Nat)
    {extra : Nat} (hextra : extra ≠ 0) : readTail negative digits extra rest =
      (ofParts negative digits extra).map fun x => (x, rest) := by
  cases rest with
  | nil => simp [readTail, readScale, hextra]
  | cons c rest =>
      obtain ⟨-, hpoint, he, hE⟩ := h c rfl
      simp [readTail, readScale, he, hE, hextra]

/-! ## Numbers without a sign -/

theorem forall_isDigit_ofNat (n : Nat) : ∀ c ∈ ofNat n, isDigit c := by
  intro c hc
  rw [isDigit_eq]
  exact isDigit_of_mem_ofNat hc

theorem readNumber_ofNat (hn : n ≤ maxWord) (hrest : StopsNumber rest) :
    readNumber negative (ofNat n ++ rest) = readTail.integer negative n rest := by
  rcases Nat.eq_zero_or_pos n with rfl | hpos
  · rw [ofNat_zero, ← hrest.readTail_zero]
    cases rest with
    | nil => rfl
    | cons c rest => simp [readNumber, (hrest c rfl).1]
  · obtain ⟨d, ds, hd, heq⟩ := exists_ofNat_eq_cons hpos
    have hdigits := forall_isDigit_ofNat n
    have haccumulate := accumulate_ofNat n
    rw [heq] at hdigits haccumulate ⊢
    have htake := takeDigits_append hdigits hrest (n := 0) (by omega)
    have hdd : isDigit d := hdigits d List.mem_cons_self
    rw [haccumulate] at htake
    simp only [List.cons_append] at htake ⊢
    simp [readNumber, hdd, htake, hrest.countDigits_eq, hrest.skipDigits_eq, hrest.readTail_zero]

theorem exists_readNumber_ofNat_eq (hn : maxWord < n) (hrest : StopsNumber rest) :
    ∃ digits extra, readNumber negative (ofNat n ++ rest) =
      (ofParts negative digits extra).map fun x => (x, rest) := by
  obtain ⟨d, ds, hd, heq⟩ := exists_ofNat_eq_cons (Nat.zero_lt_of_lt hn)
  have hdigits := forall_isDigit_ofNat n
  have haccumulate := accumulate_ofNat n
  rw [heq] at hdigits haccumulate ⊢
  have hdd : isDigit d := hdigits d List.mem_cons_self
  obtain ⟨m, count, left, htake, hne, hleft⟩ :=
    exists_takeDigits_append_eq hdigits (Nat.zero_le _) (by omega) rest
  refine ⟨m, countDigits (left ++ rest), ?_⟩
  rw [← hrest.readTail_of_ne_zero negative m (countDigits_append_ne_zero hne hleft rest)]
  simp only [List.cons_append] at htake ⊢
  simp [readNumber, hdd, htake, skipDigits_append hleft hrest]

/-! ## Values -/

/-- The first character of a number is no mark and no blank. -/
theorem exists_ofNat_append_eq_cons (n : Nat) (rest : List Char) :
    ∃ c cs, ofNat n ++ rest = c :: cs ∧ isDigit c ∧ isBlank c = false := by
  obtain ⟨c, cs, heq⟩ := List.exists_cons_of_ne_nil (ofNat_ne_nil n)
  have hc : isDigit c := forall_isDigit_ofNat n c (by simp [heq])
  refine ⟨c, cs ++ rest, by rw [heq, List.cons_append], hc, ?_⟩
  by_contra hblank
  simp only [isBlank, Bool.not_eq_false, Bool.or_eq_true, beq_iff_eq] at hblank
  rcases hblank with ((rfl | rfl) | rfl) | rfl <;> revert hc <;> decide

theorem readValue_of_isDigit {c : Char} {cs : List Char} (hc : isDigit c) (hblank : isBlank c = false)
    (fuel depth : Nat) :
    readValue (fuel + 1) depth (c :: cs) = numberValue (readNumber false (c :: cs)) := by
  have hne : ∀ d, isDigit d = false → c ≠ d := by
    rintro d hd rfl
    rw [hc] at hd
    cases hd
  have hn := hne 'n' rfl
  have ht := hne 't' rfl
  have hf := hne 'f' rfl
  have hminus := hne '-' rfl
  have hquote := hne '"' rfl
  have hbracket := hne '[' rfl
  have hbrace := hne '\x7b' rfl
  simp [readValue, hblank, hc]

theorem readValue_minus (fuel depth : Nat) (cs : List Char) :
    readValue (fuel + 1) depth ('-' :: cs) = numberValue (readNumber true cs) := by
  simp [readValue, skipBlanks_cons (c := '-') rfl]

theorem readValue_ofNat (fuel depth n : Nat) (rest : List Char) :
    readValue (fuel + 1) depth (ofNat n ++ rest) =
      numberValue (readNumber false (ofNat n ++ rest)) := by
  obtain ⟨c, cs, heq, hc, hblank⟩ := exists_ofNat_append_eq_cons n rest
  rw [heq, readValue_of_isDigit hc hblank]

/-- The integers that are read as integers. -/
def FitsWord (n : Int) : Prop := -9223372036854775808 ≤ n ∧ n ≤ 18446744073709551615

theorem fitsWord_of_isCode {n : Int} (h : -2147483648 ≤ n ∧ n ≤ 2147483647) : FitsWord n :=
  ⟨by omega, by omega⟩

theorem readValue_ofInt {n : Int} (hn : FitsWord n) (hrest : StopsNumber rest) (fuel depth : Nat) :
    readValue (fuel + 1) depth (ofInt n ++ rest) = .ok (.int n, rest) := by
  obtain ⟨hlow, hhigh⟩ := hn
  cases n with
  | ofNat n =>
      rw [Int.ofNat_eq_natCast] at hhigh
      have hfits : n ≤ maxWord := by
        rw [maxWord]
        omega
      rw [ofInt, readValue_ofNat, readNumber_ofNat hfits hrest]
      rfl
  | negSucc n =>
      have hfits : n + 1 ≤ maxWord := by
        rw [maxWord]
        omega
      have hrange : ¬(n + 1 = 0 ∨ 9223372036854775808 < n + 1) := by omega
      rw [ofInt, List.cons_append, readValue_minus, readNumber_ofNat hfits hrest, readTail.integer,
        if_neg hrange]
      rfl

theorem numberValue_ofParts (negative : Bool) (digits : Nat) (exponent : Int) (rest : List Char) :
    (∃ e, numberValue ((ofParts negative digits exponent).map fun x => (x, rest)) = .error e) ∨
      ∃ x, numberValue ((ofParts negative digits exponent).map fun x => (x, rest)) =
        .ok (.float x, rest) := by
  unfold ofParts
  cases scale 8 (.ofNat digits) exponent with
  | error e => exact Or.inl ⟨e, rfl⟩
  | ok x => exact Or.inr ⟨_, rfl⟩

/-- An integer that does not fit into 64 bits becomes a floating point number at best. -/
theorem readValue_ofInt_of_not_fits {n : Int} (hn : ¬FitsWord n) (hrest : StopsNumber rest)
    (fuel depth : Nat) :
    (∃ e, readValue (fuel + 1) depth (ofInt n ++ rest) = .error e) ∨
      ∃ x, readValue (fuel + 1) depth (ofInt n ++ rest) = .ok (.float x, rest) := by
  rw [FitsWord] at hn
  cases n with
  | ofNat n =>
      rw [Int.ofNat_eq_natCast] at hn
      have hlarge : maxWord < n := by
        rw [maxWord]
        omega
      obtain ⟨digits, extra, heq⟩ := exists_readNumber_ofNat_eq hlarge hrest
      rw [ofInt, readValue_ofNat, heq]
      exact numberValue_ofParts _ _ _ _
  | negSucc n =>
      rw [ofInt, List.cons_append, readValue_minus]
      by_cases hlarge : maxWord < n + 1
      · obtain ⟨digits, extra, heq⟩ := exists_readNumber_ofNat_eq hlarge hrest
        rw [heq]
        exact numberValue_ofParts _ _ _ _
      · have hrange : n + 1 = 0 ∨ 9223372036854775808 < n + 1 := by omega
        rw [readNumber_ofNat (Nat.not_lt.1 hlarge) hrest, readTail.integer, if_pos hrange]
        exact Or.inr ⟨_, rfl⟩

end Json

end TokenHighlight
