import Mathlib.Tactic.SplitIfs
import TokenHighlight.Number.Decimal

/-!
# Decimal integers read and written

`Decimal.Denotes` is the grammar of the integers that are read, each with its value, and
`Decimal.IsCanonical` the form in which they are written (`isCanonical_ofInt`).  Reading accepts
exactly the grammar (`toInt?_eq_some_iff`), and what is read in the canonical form is written back
in the same way (`ofInt_of_isCanonical`).
-/

namespace TokenHighlight

namespace Decimal

/-- An optional sign and digits, with the integer that they stand for. -/
def Denotes (cs : List Char) (n : Int) : Prop :=
  ∃ digits : List Char, digits ≠ [] ∧ (∀ c ∈ digits, c.isDigit) ∧
    ((cs = digits ∨ cs = '+' :: digits) ∧ n = Nat.ofDigitChars 10 digits 0 ∨
      cs = '-' :: digits ∧ n = -(Nat.ofDigitChars 10 digits 0 : Int))

/-- Zero, or digits without a leading zero after an optional minus sign. -/
def IsCanonical (cs : List Char) : Prop :=
  cs = ['0'] ∨ ∃ d ds, d ≠ '0' ∧ (∀ c ∈ d :: ds, c.isDigit) ∧ (cs = d :: ds ∨ cs = '-' :: d :: ds)

/-! ## Digits -/

theorem isDigit_eq (c : Char) : isDigit c = c.isDigit := by
  rw [Bool.eq_iff_iff]
  simp only [isDigit, Char.isDigit, Bool.and_eq_true, decide_eq_true_eq, ge_iff_le,
    UInt32.le_iff_toNat_le]
  rfl

theorem digit_eq_digitChar {n : Nat} (h : n < 10) : digit n = n.digitChar := by
  revert n
  decide

theorem digit_value {c : Char} (h : c.isDigit) : digit (value c) = c := by
  rw [← isDigit_eq] at h
  simp only [isDigit, Bool.and_eq_true, decide_eq_true_eq] at h
  rw [digit, value, Nat.add_sub_cancel' h.1, Char.ofNat_toNat]

theorem value_lt {c : Char} (h : c.isDigit) : value c < 10 := by
  rw [← isDigit_eq] at h
  simp only [isDigit, Bool.and_eq_true, decide_eq_true_eq] at h
  rw [value]
  omega

theorem value_pos {c : Char} (h : c.isDigit) (hc : c ≠ '0') : 0 < value c := by
  rcases Nat.eq_zero_or_pos (value c) with h0 | h0
  · have hzero := digit_value h
    rw [h0] at hzero
    exact absurd hzero.symm hc
  · exact h0

/-! ## Natural numbers -/

theorem ofNat_eq_toDigits (n : Nat) : ofNat n = Nat.toDigits 10 n := by
  fun_induction ofNat n with
  | case1 n h => rw [Nat.toDigits_of_lt_base h, digit_eq_digitChar h]
  | case2 n h ih =>
      rw [Nat.toDigits_of_base_le (by decide) (Nat.not_lt.1 h), ih,
        digit_eq_digitChar (Nat.mod_lt n (by decide))]

theorem ofNat_zero : ofNat 0 = ['0'] := by
  rw [ofNat]
  rfl

theorem ofList_ofNat (n : Nat) : String.ofList (ofNat n) = toString n := by
  rw [ofNat_eq_toDigits, Nat.toString_eq_ofList_toDigits]

theorem ofNat_ne_nil (n : Nat) : ofNat n ≠ [] := by
  rw [ofNat_eq_toDigits]
  exact Nat.toDigits_ne_nil

theorem isDigit_of_mem_ofNat {n : Nat} {c : Char} (h : c ∈ ofNat n) : c.isDigit := by
  rw [ofNat_eq_toDigits] at h
  exact Nat.isDigit_of_mem_toDigits (by decide) (by decide) h

theorem accumulate_eq_ofDigitChars (acc : Nat) (cs : List Char) :
    accumulate acc cs = Nat.ofDigitChars 10 cs acc := rfl

theorem accumulate_ofNat (n : Nat) : accumulate 0 (ofNat n) = n := by
  rw [accumulate_eq_ofDigitChars, ofNat_eq_toDigits, Nat.ofDigitChars_ten_toDigits]

/-- A digit behind a positive number is its last digit. -/
theorem ofNat_append_digit {n : Nat} {c : Char} (hn : 0 < n) (hc : c.isDigit) :
    ofNat n ++ [c] = ofNat (10 * n + value c) := by
  have hlt := value_lt hc
  have hdiv : (10 * n + value c) / 10 = n := by omega
  have hmod : (10 * n + value c) % 10 = value c := by omega
  have hstep : ofNat (10 * n + value c) = ofNat ((10 * n + value c) / 10) ++
      [digit ((10 * n + value c) % 10)] := by
    rw [ofNat, if_neg (by omega)]
  rw [hstep, hdiv, hmod, digit_value hc]

theorem ofNat_append_digits {n : Nat} {cs : List Char} (hn : 0 < n) (hcs : ∀ c ∈ cs, c.isDigit) :
    ofNat n ++ cs = ofNat (accumulate n cs) := by
  induction cs generalizing n with
  | nil => exact List.append_nil _
  | cons c cs ih =>
      have hc := hcs c List.mem_cons_self
      have hpos : 0 < 10 * n + value c := by omega
      calc ofNat n ++ c :: cs = (ofNat n ++ [c]) ++ cs := by simp
        _ = ofNat (10 * n + value c) ++ cs := by rw [ofNat_append_digit hn hc]
        _ = ofNat (accumulate n (c :: cs)) := ih hpos fun x hx => hcs x (List.mem_cons_of_mem _ hx)

/-- Digits without a leading zero are written as they were read. -/
theorem ofNat_accumulate {d : Char} {ds : List Char} (hd : d ≠ '0')
    (hdigits : ∀ c ∈ d :: ds, c.isDigit) : ofNat (accumulate 0 (d :: ds)) = d :: ds := by
  have hdd : d.isDigit := hdigits d List.mem_cons_self
  have hhead : accumulate 0 (d :: ds) = accumulate (value d) ds := by simp [accumulate]
  rw [hhead, ← ofNat_append_digits (value_pos hdd hd) fun x hx =>
    hdigits x (List.mem_cons_of_mem _ hx), ofNat, if_pos (value_lt hdd), digit_value hdd,
    List.singleton_append]

theorem toNat?_eq_some_iff {cs : List Char} {n : Nat} :
    toNat? cs = some n ↔ cs ≠ [] ∧ (∀ c ∈ cs, c.isDigit) ∧ n = Nat.ofDigitChars 10 cs 0 := by
  have hcond : (!cs.isEmpty && cs.all isDigit) = true ↔ cs ≠ [] ∧ ∀ c ∈ cs, c.isDigit := by
    simp [isDigit_eq]
  rw [toNat?]
  split_ifs with h
  · obtain ⟨hne, hdigits⟩ := hcond.1 h
    rw [Option.some.injEq, eq_comm, accumulate_eq_ofDigitChars]
    exact ⟨fun hn => ⟨hne, hdigits, hn⟩, fun hn => hn.2.2⟩
  · constructor
    · rintro ⟨⟩
    · rintro ⟨hne, hdigits, -⟩
      exact absurd (hcond.2 ⟨hne, hdigits⟩) h

theorem toNat?_ofNat (n : Nat) : toNat? (ofNat n) = some n := by
  refine toNat?_eq_some_iff.2 ⟨ofNat_ne_nil n, fun c hc => isDigit_of_mem_ofNat hc, ?_⟩
  rw [← accumulate_eq_ofDigitChars, accumulate_ofNat]

/-! ## Integers -/

theorem toInt?_plus (cs : List Char) : toInt? ('+' :: cs) = (toNat? cs).map Int.ofNat := by
  rw [toInt?]
  cases toNat? cs <;> rfl

theorem toInt?_minus (cs : List Char) :
    toInt? ('-' :: cs) = (toNat? cs).map fun n => -Int.ofNat n := by
  rw [toInt?]
  cases toNat? cs <;> rfl

theorem toInt?_unsigned {cs : List Char} (hplus : ∀ ds, cs ≠ '+' :: ds)
    (hminus : ∀ ds, cs ≠ '-' :: ds) : toInt? cs = (toNat? cs).map Int.ofNat := by
  unfold toInt?
  split
  · exact absurd rfl (hplus _)
  · exact absurd rfl (hminus _)
  · cases toNat? cs <;> rfl

theorem toInt?_of_digits {cs : List Char} (hcs : ∀ c ∈ cs, c.isDigit) :
    toInt? cs = (toNat? cs).map Int.ofNat := by
  refine toInt?_unsigned ?_ ?_
  · rintro ds rfl
    exact absurd (hcs _ List.mem_cons_self) (by decide)
  · rintro ds rfl
    exact absurd (hcs _ List.mem_cons_self) (by decide)

/-- Exactly the integers of the grammar are read, with the values that they have there. -/
theorem toInt?_eq_some_iff {cs : List Char} {n : Int} : toInt? cs = some n ↔ Denotes cs n := by
  constructor
  · intro h
    by_cases hplus : ∃ ds, cs = '+' :: ds
    · obtain ⟨ds, rfl⟩ := hplus
      rw [toInt?_plus, Option.map_eq_some_iff] at h
      obtain ⟨k, hk, rfl⟩ := h
      obtain ⟨hne, hdigits, rfl⟩ := toNat?_eq_some_iff.1 hk
      exact ⟨ds, hne, hdigits, Or.inl ⟨Or.inr rfl, rfl⟩⟩
    · by_cases hminus : ∃ ds, cs = '-' :: ds
      · obtain ⟨ds, rfl⟩ := hminus
        rw [toInt?_minus, Option.map_eq_some_iff] at h
        obtain ⟨k, hk, rfl⟩ := h
        obtain ⟨hne, hdigits, rfl⟩ := toNat?_eq_some_iff.1 hk
        exact ⟨ds, hne, hdigits, Or.inr ⟨rfl, rfl⟩⟩
      · rw [toInt?_unsigned (not_exists.1 hplus) (not_exists.1 hminus),
          Option.map_eq_some_iff] at h
        obtain ⟨k, hk, rfl⟩ := h
        obtain ⟨hne, hdigits, rfl⟩ := toNat?_eq_some_iff.1 hk
        exact ⟨cs, hne, hdigits, Or.inl ⟨Or.inl rfl, rfl⟩⟩
  · rintro ⟨digits, hne, hdigits, ⟨rfl | rfl, rfl⟩ | ⟨rfl, rfl⟩⟩
    · rw [toInt?_of_digits hdigits, toNat?_eq_some_iff.2 ⟨hne, hdigits, rfl⟩]
      rfl
    · rw [toInt?_plus, toNat?_eq_some_iff.2 ⟨hne, hdigits, rfl⟩]
      rfl
    · rw [toInt?_minus, toNat?_eq_some_iff.2 ⟨hne, hdigits, rfl⟩]
      rfl

theorem isCode_iff {n : Int} : isCode n ↔ -2147483648 ≤ n ∧ n ≤ 2147483647 := by
  simp [isCode]

theorem toCode?_eq_some_iff {cs : List Char} {n : Int} :
    toCode? cs = some n ↔ Denotes cs n ∧ -2147483648 ≤ n ∧ n ≤ 2147483647 := by
  rw [toCode?, Option.filter_eq_some_iff, toInt?_eq_some_iff, isCode_iff]

theorem toInt?_ofInt (n : Int) : toInt? (ofInt n) = some n := by
  cases n with
  | ofNat n =>
      rw [ofInt, toInt?_of_digits fun c hc => isDigit_of_mem_ofNat hc, toNat?_ofNat]
      rfl
  | negSucc n =>
      rw [ofInt, toInt?_minus, toNat?_ofNat]
      rfl

/-! ## The canonical form -/

theorem exists_ofNat_eq_cons {n : Nat} (hn : 0 < n) : ∃ d ds, d ≠ '0' ∧ ofNat n = d :: ds := by
  fun_induction ofNat n with
  | case1 n h =>
      have hdigit : ∀ k < 10, 0 < k → digit k ≠ '0' := by decide
      exact ⟨digit n, [], hdigit n h hn, rfl⟩
  | case2 n h ih =>
      obtain ⟨d, ds, hd, heq⟩ := ih (by omega)
      exact ⟨d, ds ++ [digit (n % 10)], hd, by rw [heq, List.cons_append]⟩

theorem isCanonical_ofInt (n : Int) : IsCanonical (ofInt n) := by
  have hpos : ∀ k : Nat, 0 < k →
      ∃ d ds, d ≠ '0' ∧ (∀ c ∈ d :: ds, c.isDigit) ∧ ofNat k = d :: ds := by
    intro k hk
    obtain ⟨d, ds, hd, heq⟩ := exists_ofNat_eq_cons hk
    exact ⟨d, ds, hd, fun c hc => isDigit_of_mem_ofNat (heq ▸ hc), heq⟩
  cases n with
  | ofNat n =>
      rcases Nat.eq_zero_or_pos n with rfl | hn
      · exact Or.inl ofNat_zero
      · obtain ⟨d, ds, hd, hdigits, heq⟩ := hpos n hn
        exact Or.inr ⟨d, ds, hd, hdigits, Or.inl heq⟩
  | negSucc n =>
      obtain ⟨d, ds, hd, hdigits, heq⟩ := hpos (n + 1) (Nat.succ_pos n)
      exact Or.inr ⟨d, ds, hd, hdigits, Or.inr (congrArg ('-' :: ·) heq)⟩

theorem ofInt_of_isCanonical {cs : List Char} {n : Int} (hcs : IsCanonical cs)
    (h : toInt? cs = some n) : ofInt n = cs := by
  rcases hcs with rfl | ⟨d, ds, hd, hdigits, rfl | rfl⟩
  · obtain rfl : 0 = n := Option.some.inj h
    exact ofNat_zero
  · rw [toInt?_of_digits hdigits, Option.map_eq_some_iff] at h
    obtain ⟨k, hk, rfl⟩ := h
    obtain ⟨-, -, rfl⟩ := toNat?_eq_some_iff.1 hk
    exact ofNat_accumulate hd hdigits
  · rw [toInt?_minus, Option.map_eq_some_iff] at h
    obtain ⟨k, hk, rfl⟩ := h
    obtain ⟨-, -, rfl⟩ := toNat?_eq_some_iff.1 hk
    have hdigit := ofNat_accumulate hd hdigits
    rw [accumulate_eq_ofDigitChars] at hdigit
    generalize Nat.ofDigitChars 10 (d :: ds) 0 = k at hdigit ⊢
    cases k with
    | zero =>
        rw [ofNat_zero] at hdigit
        exact absurd (List.cons.inj hdigit).1.symm hd
    | succ k => exact congrArg ('-' :: ·) hdigit

end Decimal

end TokenHighlight
