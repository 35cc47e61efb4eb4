/-!
# Byte offsets in a text

Spans are measured in bytes of the UTF-8 form, while a text is a list of characters.  `byteLength`
is the measure, and `splitAt?` cuts a text at a byte offset.  An offset inside a character or past
the end has no cut.
-/

namespace TokenHighlight

namespace Text

/-- The number of bytes of a text in UTF-8. -/
def byteLength : List Char → Nat
  | [] => 0
  | c :: cs => c.utf8Size + byteLength cs

@[simp] theorem byteLength_nil : byteLength [] = 0 := rfl

@[simp] theorem byteLength_cons (c : Char) (cs : List Char) :
    byteLength (c :: cs) = c.utf8Size + byteLength cs := rfl

@[simp] theorem byteLength_append (cs ds : List Char) :
    byteLength (cs ++ ds) = byteLength cs + byteLength ds := by
  induction cs with
  | nil => simp
  | cons c cs ih => simp [ih]; omega

/-- The text before and after a byte offset, if the offset is a character boundary. -/
def splitAt? : List Char → Nat → Option (List Char × List Char)
  | cs, 0 => some ([], cs)
  | [], _ + 1 => none
  | c :: cs, n + 1 =>
      if n + 1 < c.utf8Size then none
      else (splitAt? cs (n + 1 - c.utf8Size)).map fun (before, after) => (c :: before, after)

@[simp] theorem splitAt?_zero (cs : List Char) : splitAt? cs 0 = some ([], cs) := by
  cases cs <;> rfl

/-- Cutting loses nothing, and the first part has exactly the bytes asked for. -/
theorem splitAt?_eq_some_iff {cs before after : List Char} {n : Nat} :
    splitAt? cs n = some (before, after) ↔ before ++ after = cs ∧ byteLength before = n := by
  induction cs generalizing n before after with
  | nil =>
      cases n with
      | zero => simp [splitAt?, eq_comm]; rintro rfl rfl; rfl
      | succ n =>
          simp only [splitAt?, reduceCtorEq, List.append_eq_nil_iff, false_iff, not_and, and_imp]
          rintro rfl rfl
          simp
  | cons c cs ih =>
      have hc : 0 < c.utf8Size := c.utf8Size_pos
      cases n with
      | zero =>
          cases before with
          | nil => simp [splitAt?, eq_comm]
          | cons b before => simp [splitAt?]; have := b.utf8Size_pos; omega
      | succ n =>
          simp only [splitAt?]
          cases before with
          | nil => split <;> simp
          | cons b before =>
              split
              · rename_i h
                simp only [reduceCtorEq, List.cons_append, List.cons.injEq, byteLength_cons,
                  false_iff, not_and, and_imp]
                rintro rfl - h'
                omega
              · rename_i h
                simp only [Option.map_eq_some_iff, Prod.exists, Prod.mk.injEq, List.cons.injEq, ih,
                  List.cons_append, byteLength_cons]
                constructor
                · rintro ⟨x, y, ⟨hxy, hn⟩, ⟨rfl, rfl⟩, rfl⟩
                  exact ⟨⟨rfl, hxy⟩, by omega⟩
                · rintro ⟨⟨rfl, hxy⟩, hn⟩
                  exact ⟨before, after, ⟨hxy, by omega⟩, ⟨rfl, rfl⟩, rfl⟩

/-- The part of a text between two byte offsets, if both are character boundaries in order. -/
def slice? (cs : List Char) (start stop : Nat) : Option (List Char) :=
  if stop < start then none
  else
    match splitAt? cs start with
    | none => none
    | some (_, rest) => (splitAt? rest (stop - start)).map Prod.fst

end Text

end TokenHighlight
