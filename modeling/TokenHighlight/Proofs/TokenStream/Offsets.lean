import Mathlib.Tactic.SplitIfs
import TokenHighlight.Proofs.TokenStream.Reading

/-!
# The offsets of a token stream

The reader of JSON numbers takes the digits of an integer as long as they fit into 64 bits, and any
number that goes on becomes a floating point number, which is no offset.  So all offsets of a token
stream that was read fit into 64 bits (`fitsWord_of_read`).
-/

namespace TokenHighlight

namespace Json

variable {n digits : Nat} {exponent : Int} {negative : Bool} {cs rest : List Char} {x : Number}

/-- The number is a floating point number or an integer of at most 64 bits. -/
def Number.FitsWord : Number → Prop
  | .integer n => n ≤ maxWord
  | .float _ => True

theorem takeDigits_le (h : n ≤ maxWord) (cs : List Char) : (takeDigits n cs).1 ≤ maxWord := by
  induction cs generalizing n with
  | nil => exact h
  | cons c cs ih =>
      rw [takeDigits]
      split
      · rename_i hc
        rw [Bool.and_eq_true, decide_eq_true_eq] at hc
        exact ih hc.2
      · exact h

theorem fitsWord_of_ofParts (h : ofParts negative digits exponent = .ok x) : x.FitsWord := by
  unfold ofParts at h
  split at h
  · cases h
  · cases h
    trivial

theorem fitsWord_of_readExponent (h : readExponent negative digits exponent cs = .ok (x, rest)) :
    x.FitsWord := by
  unfold readExponent at h
  split at h
  grind [fitsWord_of_ofParts, Number.FitsWord]

theorem fitsWord_of_map_ofParts
    (h : (ofParts negative digits exponent).map (fun x => (x, cs)) = .ok (x, rest)) :
    x.FitsWord := by
  cases hparts : ofParts negative digits exponent with
  | error e =>
      rw [hparts] at h
      cases h
  | ok y =>
      rw [hparts] at h
      cases h
      exact fitsWord_of_ofParts hparts

theorem fitsWord_of_readScale (h : readScale negative digits exponent cs = .ok (x, rest)) :
    x.FitsWord := by
  unfold readScale at h
  split at h
  · split_ifs at h
    · exact fitsWord_of_readExponent h
    · exact fitsWord_of_map_ofParts h
  · exact fitsWord_of_map_ofParts h

theorem fitsWord_of_readFraction (h : readFraction negative digits exponent cs = .ok (x, rest)) :
    x.FitsWord := by
  unfold readFraction at h
  grind [fitsWord_of_readScale]

theorem fitsWord_of_integer (hdigits : digits ≤ maxWord)
    (h : readTail.integer negative digits cs = .ok (x, rest)) : x.FitsWord := by
  unfold readTail.integer at h
  grind [Number.FitsWord]

theorem fitsWord_of_readTail {extra : Nat} (hdigits : digits ≤ maxWord)
    (h : readTail negative digits extra cs = .ok (x, rest)) : x.FitsWord := by
  unfold readTail at h
  grind [fitsWord_of_readFraction, fitsWord_of_readScale, fitsWord_of_integer]

theorem fitsWord_of_readNumber (h : readNumber negative cs = .ok (x, rest)) : x.FitsWord := by
  have hzero : 0 ≤ maxWord := Nat.zero_le _
  unfold readNumber at h
  split at h
  · cases h
  · split at h
    · split_ifs at h
      exact fitsWord_of_readTail hzero h
    · exact fitsWord_of_readTail hzero h
  · rename_i c cs _
    have hle := takeDigits_le hzero (c :: cs)
    split_ifs at h
    generalize takeDigits 0 (c :: cs) = taken at h hle
    exact fitsWord_of_readTail hle h

end Json

namespace TokenStream

open Json

variable {α : Type} {n : Nat} {cs rest : List Char} {first : Bool} {span : Span} {t : StreamToken}
  {ts : List StreamToken}

theorem le_of_offsetOfNumber {r : Reading Number} (hr : ∀ x rest, r = .ok (x, rest) → x.FitsWord)
    (h : offsetOfNumber r = .ok (n, rest)) : n ≤ maxWord := by
  unfold offsetOfNumber at h
  split at h
  · cases h
  · rename_i m cs
    have hm : m ≤ maxWord := hr _ _ rfl
    split_ifs at h
    cases h
    omega
  · cases h

theorem le_of_readOffset (h : readOffset cs = .ok (n, rest)) : n ≤ maxWord := by
  unfold readOffset at h
  split at h
  · cases h
  · exact le_of_offsetOfNumber (fun _ _ => fitsWord_of_readNumber) h
  · split_ifs at h
    exact le_of_offsetOfNumber (fun _ _ => fitsWord_of_readNumber) h

theorem exists_of_readItem {missing : ReadError} {read : List Char → Reading α} {a : α}
    (h : readItem first missing read cs = .ok (a, rest)) : ∃ cs, read cs = .ok (a, rest) := by
  unfold readItem at h
  split at h
  · cases h
  · cases h
  · exact ⟨_, h⟩

theorem exists_of_readTwo {β : Type} {expected : String} {readFirst : List Char → Reading α}
    {readSecond : List Char → Reading β} {a : α} {b : β}
    (h : readTwo expected readFirst readSecond cs = .ok ((a, b), rest)) :
    (∃ cs rest, readFirst cs = .ok (a, rest)) ∧ ∃ cs rest, readSecond cs = .ok (b, rest) := by
  unfold readTwo at h
  split at h
  · cases h
  · rename_i hfirst
    split at h
    · cases h
    · rename_i hsecond
      split at h
      · cases h
      · cases h
        obtain ⟨cs, hfirst⟩ := exists_of_readItem hfirst
        obtain ⟨ds, hsecond⟩ := exists_of_readItem hsecond
        exact ⟨⟨_, _, hfirst⟩, _, _, hsecond⟩

theorem fitsWord_of_readSpan (h : readSpan cs = .ok (span, rest)) : span.FitsWord := by
  unfold readSpan at h
  split at h
  · cases h
  · split at h
    · cases h
    · rename_i htwo
      cases h
      obtain ⟨⟨_, _, hstart⟩, _, _, hstop⟩ := exists_of_readTwo htwo
      exact ⟨le_of_readOffset hstart, le_of_readOffset hstop⟩
  · cases h

/-- A span that has been gathered fits into words. -/
def Gathered.FitsWord (p : Gathered) : Prop := ∀ span ∈ p.span?, span.FitsWord

theorem fitsWord_of_complete {p : Gathered} (hp : p.FitsWord) (h : p.complete = .ok t) :
    t.span.FitsWord := by
  obtain ⟨kind?, span?⟩ := p
  cases kind? <;> cases span? <;> cases h
  exact hp _ rfl

theorem fitsWord_of_readField {key : List Char} {p q : Gathered} (hp : p.FitsWord)
    (h : readField key p cs = .ok (q, rest)) : q.FitsWord := by
  unfold readField at h
  grind [fitsWord_of_readSpan, Gathered.FitsWord]

theorem fitsWord_of_readFields {fuel : Nat} {p q : Gathered} (hp : p.FitsWord)
    (h : readFields fuel first p cs = .ok (q, rest)) : q.FitsWord := by
  induction fuel generalizing first p cs with
  | zero => cases h
  | succ fuel ih =>
      unfold readFields at h
      split at h
      · cases h
      · cases h
        exact hp
      · split at h
        · cases h
        · split at h
          · cases h
          · rename_i hfield
            exact ih (fitsWord_of_readField hp hfield) h

theorem fitsWord_of_readToken (h : readToken cs = .ok (t, rest)) : t.span.FitsWord := by
  unfold readToken at h
  split at h
  · cases h
  · split at h
    · cases h
    · rename_i htwo
      cases h
      obtain ⟨-, _, _, hspan⟩ := exists_of_readTwo htwo
      exact fitsWord_of_readSpan hspan
  · split at h
    · cases h
    · rename_i p cs hfields
      have hp := fitsWord_of_readFields (by simp [Gathered.FitsWord]) hfields
      split at h
      · cases h
      · rename_i hcomplete
        split at h <;> cases h
        exact fitsWord_of_complete hp hcomplete
  · cases h

theorem fitsWord_of_readTokens {fuel : Nat} (h : readTokens fuel first cs = .ok (ts, rest)) :
    ∀ t ∈ ts, t.span.FitsWord := by
  induction fuel generalizing first cs ts with
  | zero => cases h
  | succ fuel ih =>
      unfold readTokens at h
      split at h
      · cases h
      · cases h
        simp
      · split at h
        · cases h
        · rename_i htoken
          split at h
          · cases h
          · rename_i htokens
            cases h
            exact List.forall_mem_cons.2 ⟨fitsWord_of_readToken htoken, ih htokens⟩

theorem fitsWord_of_read {text : String} (h : read text = .ok ts) : ∀ t ∈ ts, t.span.FitsWord := by
  unfold read readAll at h
  split at h
  · cases h
  · split at h
    · cases h
    · rename_i htokens
      split at h
      · cases h
      · split_ifs at h
        cases h
        exact fitsWord_of_readTokens htokens
  · cases h

end TokenStream

end TokenHighlight
