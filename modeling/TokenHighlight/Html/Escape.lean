/-!
# Text inside HTML

`escape` writes a text so that it holds no markup, and `readText?` reads such a text up to the next
tag.  `readText?_escape` says that reading inverts escaping.
-/

namespace TokenHighlight

namespace Html

/-- The form of a character inside HTML. -/
def escapeChar (c : Char) : List Char :=
  if c = '<' then ['&', 'l', 't', ';']
  else if c = '>' then ['&', 'g', 't', ';']
  else if c = '&' then ['&', 'a', 'm', 'p', ';']
  else if c = '\x27' then ['&', '#', '3', '9', ';']
  else if c = '"' then ['&', 'q', 'u', 'o', 't', ';']
  else [c]

/-- The form of a text inside HTML. -/
def escape (cs : List Char) : List Char := cs.flatMap escapeChar

/-- The text up to the next tag, with its entities decoded, and the rest.  Quotation marks, `>` and
`&` outside of the five entities are no text. -/
def readText? : List Char → Option (List Char × List Char)
  | [] => some ([], [])
  | '<' :: cs => some ([], '<' :: cs)
  | '&' :: 'l' :: 't' :: ';' :: cs => (readText? cs).map fun (text, rest) => ('<' :: text, rest)
  | '&' :: 'g' :: 't' :: ';' :: cs => (readText? cs).map fun (text, rest) => ('>' :: text, rest)
  | '&' :: 'a' :: 'm' :: 'p' :: ';' :: cs =>
      (readText? cs).map fun (text, rest) => ('&' :: text, rest)
  | '&' :: '#' :: '3' :: '9' :: ';' :: cs =>
      (readText? cs).map fun (text, rest) => ('\x27' :: text, rest)
  | '&' :: 'q' :: 'u' :: 'o' :: 't' :: ';' :: cs =>
      (readText? cs).map fun (text, rest) => ('"' :: text, rest)
  | c :: cs =>
      if c = '>' ∨ c = '&' ∨ c = '\x27' ∨ c = '"' then none
      else (readText? cs).map fun (text, rest) => (c :: text, rest)

@[simp] theorem escape_nil : escape [] = [] := rfl

@[simp] theorem escape_cons (c : Char) (cs : List Char) :
    escape (c :: cs) = escapeChar c ++ escape cs := rfl

@[simp] theorem escape_append (cs ds : List Char) : escape (cs ++ ds) = escape cs ++ escape ds :=
  List.flatMap_append

theorem readText?_escapeChar_append (c : Char) (cs : List Char) :
    readText? (escapeChar c ++ cs) = (readText? cs).map fun (text, rest) => (c :: text, rest) := by
  unfold escapeChar
  split
  · rename_i h; subst h; simp [readText?]
  · split
    · rename_i h; subst h; simp [readText?]
    · split
      · rename_i h; subst h; simp [readText?]
      · split
        · rename_i h; subst h; simp [readText?]
        · split
          · rename_i h; subst h; simp [readText?]
          · rename_i h₁ h₂ h₃ h₄ h₅
            rw [List.singleton_append, readText?]
            · simp [h₂, h₃, h₄, h₅]
            all_goals simp_all

/-- Reading an escaped text before a tag gives the text back. -/
theorem readText?_escape (text : List Char) {rest : List Char}
    (h : readText? rest = some ([], rest)) :
    readText? (escape text ++ rest) = some (text, rest) := by
  induction text with
  | nil => simpa using h
  | cons c cs ih => simp [readText?_escapeChar_append, ih]

end Html

end TokenHighlight
