/-!
# Lines and separators

`lines` cuts a text into its lines.  A line ends with a line feed, or with a carriage return and a
line feed; the last line may go without.  `splitLast?` cuts at the last occurrence of a separator.
-/

namespace TokenHighlight

namespace Text

/-- The pieces of a text between the occurrences of a separator; there is always at least one. -/
def splitOn (sep : Char) : List Char → List (List Char)
  | [] => [[]]
  | c :: cs =>
      if c = sep then [] :: splitOn sep cs
      else
        match splitOn sep cs with
        | [] => [[c]]
        | piece :: pieces => (c :: piece) :: pieces

/-- A line without the carriage return that belongs to its line end. -/
def dropReturn (cs : List Char) : List Char :=
  if cs.getLast? = some '\r' then cs.dropLast else cs

/-- The lines of a list of pieces between line feeds. -/
def linesOfPieces : List (List Char) → List (List Char)
  | [] => []
  | [last] => if last.isEmpty then [] else [last]
  | piece :: pieces => dropReturn piece :: linesOfPieces pieces

/-- The lines of a text, without their line ends. -/
def lines (cs : List Char) : List (List Char) :=
  linesOfPieces (splitOn '\n' cs)

/-- The text before and after the last occurrence of a separator. -/
def splitLast? (sep : Char) : List Char → Option (List Char × List Char)
  | [] => none
  | c :: cs =>
      match splitLast? sep cs with
      | some (before, after) => some (c :: before, after)
      | none => if c = sep then some ([], cs) else none

end Text

end TokenHighlight
