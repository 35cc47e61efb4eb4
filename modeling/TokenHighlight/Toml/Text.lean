import TokenHighlight.Text.Hex

/-!
# TOML texts

The lexical level of TOML: blanks, line ends, comments and the four kinds of strings.  Each reader
takes the characters from a position on and gives what it has read and the rest, or nothing if the
text is malformed.
-/

namespace TokenHighlight

namespace Toml

/-! ## Blanks -/

/-- Whether a character is a space or a tab. -/
def isBlank (c : Char) : Bool := c == ' ' || c == '\t'

/-- The text after its leading spaces and tabs. -/
def skipBlanks (cs : List Char) : List Char := cs.dropWhile isBlank

/-- Whether a character may stand in a comment or a string: no control character except tab. -/
def isVisible (c : Char) : Bool :=
  let n := c.toNat
  n == 9 || (0x20 ≤ n && n != 0x7F)

/-- The text after a line end. -/
def newline? : List Char → Option (List Char)
  | '\n' :: cs => some cs
  | '\r' :: '\n' :: cs => some cs
  | _ => none

/-- The text after a comment, if there is one. -/
def skipComment : List Char → List Char
  | '#' :: cs => cs.dropWhile isVisible
  | cs => cs

/-- The text after the end of a line: blanks, a comment and a line end or the end of the text. -/
def lineEnd? (cs : List Char) : Option (List Char) :=
  match skipComment (skipBlanks cs) with
  | [] => some []
  | cs => newline? cs

/-! ## Strings -/

/-- The character of an escape sequence of one letter. -/
def simpleEscape? (c : Char) : Option Char :=
  if c = 'b' then some '\x08'
  else if c = 't' then some '\t'
  else if c = 'n' then some '\n'
  else if c = 'f' then some '\x0c'
  else if c = 'r' then some '\r'
  else if c = '"' then some '"'
  else if c = '\\' then some '\\'
  else none

/-- The character with a hexadecimal code point. -/
def codePoint? (digits : List Char) : Option Char :=
  match Hex.accumulate? 0 digits with
  | none => none
  | some n => if h : n.isValidChar then some (Char.ofNatAux n h) else none

/-- Puts a character in front of what was read. -/
def push (c : Char) (r : Option (List Char × List Char)) : Option (List Char × List Char) :=
  r.map fun (cs, rest) => (c :: cs, rest)

/-- Puts an optional character in front of what was read. -/
def push? (c? : Option Char) (r : Option (List Char × List Char)) :
    Option (List Char × List Char) :=
  match c? with
  | none => none
  | some c => push c r

/-- A basic string from after its opening quotation mark. -/
def readBasic : List Char → Option (List Char × List Char)
  | [] => none
  | '"' :: cs => some ([], cs)
  | '\\' :: 'u' :: a :: b :: c :: d :: cs => push? (codePoint? [a, b, c, d]) (readBasic cs)
  | '\\' :: 'U' :: a :: b :: c :: d :: e :: f :: g :: h :: cs =>
      push? (codePoint? [a, b, c, d, e, f, g, h]) (readBasic cs)
  | '\\' :: c :: cs => push? (simpleEscape? c) (readBasic cs)
  | c :: cs => if isVisible c then push c (readBasic cs) else none

/-- A literal string from after its opening quotation mark. -/
def readLiteral : List Char → Option (List Char × List Char)
  | [] => none
  | '\x27' :: cs => some ([], cs)
  | c :: cs => if isVisible c then push c (readLiteral cs) else none

/-- Whether only blanks are left on the line. -/
def endsLine (cs : List Char) : Bool := (newline? (skipBlanks cs)).isSome

/-- A basic string of several lines from after its opening quotation marks.  A backslash at the end
of a line skips the white space up to the next character. -/
def readLongBasic : Bool → List Char → Option (List Char × List Char)
  | _, [] => none
  | _, '"' :: '"' :: '"' :: '"' :: '"' :: cs => some (['"', '"'], cs)
  | _, '"' :: '"' :: '"' :: '"' :: cs => some (['"'], cs)
  | _, '"' :: '"' :: '"' :: cs => some ([], cs)
  | skip, '\r' :: '\n' :: cs =>
      if skip then readLongBasic true cs else push '\n' (readLongBasic false cs)
  | skip, '\n' :: cs =>
      if skip then readLongBasic true cs else push '\n' (readLongBasic false cs)
  | _, '\\' :: 'u' :: a :: b :: c :: d :: cs =>
      push? (codePoint? [a, b, c, d]) (readLongBasic false cs)
  | _, '\\' :: 'U' :: a :: b :: c :: d :: e :: f :: g :: h :: cs =>
      push? (codePoint? [a, b, c, d, e, f, g, h]) (readLongBasic false cs)
  | _, '\\' :: cs =>
      if endsLine cs then readLongBasic true cs
      else
        match cs with
        | [] => none
        | c :: cs => push? (simpleEscape? c) (readLongBasic false cs)
  | skip, c :: cs =>
      if skip && isBlank c then readLongBasic true cs
      else if isVisible c then push c (readLongBasic false cs)
      else none

/-- A literal string of several lines from after its opening quotation marks. -/
def readLongLiteral : List Char → Option (List Char × List Char)
  | [] => none
  | '\x27' :: '\x27' :: '\x27' :: '\x27' :: '\x27' :: cs => some (['\x27', '\x27'], cs)
  | '\x27' :: '\x27' :: '\x27' :: '\x27' :: cs => some (['\x27'], cs)
  | '\x27' :: '\x27' :: '\x27' :: cs => some ([], cs)
  | '\r' :: '\n' :: cs => push '\n' (readLongLiteral cs)
  | '\n' :: cs => push '\n' (readLongLiteral cs)
  | c :: cs => if isVisible c then push c (readLongLiteral cs) else none

/-- The text after a line end that directly follows an opening of three quotation marks. -/
def skipFirstNewline (cs : List Char) : List Char := (newline? cs).getD cs

/-- A string of any kind. -/
def readString : List Char → Option (List Char × List Char)
  | '"' :: '"' :: '"' :: cs => readLongBasic false (skipFirstNewline cs)
  | '"' :: cs => readBasic cs
  | '\x27' :: '\x27' :: '\x27' :: cs => readLongLiteral (skipFirstNewline cs)
  | '\x27' :: cs => readLiteral cs
  | _ => none

/-! ## Keys -/

/-- Whether a character may stand in a key without quotes. -/
def isBare (c : Char) : Bool := c.isAlphanum || c == '_' || c == '-'

/-- One part of a key. -/
def readKeyPart : List Char → Option (List Char × List Char)
  | '"' :: cs => readBasic cs
  | '\x27' :: cs => readLiteral cs
  | cs =>
      let part := cs.takeWhile isBare
      if part.isEmpty then none else some (part, cs.dropWhile isBare)

/-- The parts of a dotted key with the blanks around them, at most `fuel` parts. -/
def readKeyParts : Nat → List Char → Option (List String × List Char)
  | 0, _ => none
  | fuel + 1, cs =>
      match readKeyPart (skipBlanks cs) with
      | none => none
      | some (part, cs) =>
          match skipBlanks cs with
          | '.' :: cs =>
              (readKeyParts fuel cs).map fun (parts, rest) => (String.ofList part :: parts, rest)
          | cs => some ([String.ofList part], cs)

/-- The greatest number of parts of a key and of values nested in each other. -/
def maxDepth : Nat := 79

/-- A dotted key with the blanks around it. -/
def readKey (cs : List Char) : Option (List String × List Char) := readKeyParts maxDepth cs

end Toml

end TokenHighlight
