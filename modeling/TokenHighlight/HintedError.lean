/-!
# Errors with hints

A `HintedError` is a message and suggestions for the user, in the order they were attached.  Hints
can be attached one by one, in a block of state updates (`hint`), or to the error of a result
(`HintedError.attach`), whatever type the error has as long as it can be turned into a
`HintedError`.
-/

namespace TokenHighlight

/-- An error message with hints on how to mend the error. -/
structure HintedError where
  /-- What went wrong. -/
  message : String
  /-- Suggestions, in the order they were attached. -/
  hints : List String
  deriving DecidableEq

namespace HintedError

/-- An error without hints. -/
def ofMessage (message : String) : HintedError := ⟨message, []⟩

/-- The error with one more hint at the end. -/
def withHint (e : HintedError) (h : String) : HintedError := { e with hints := e.hints ++ [h] }

/-- The error with more hints at the end. -/
def withHints (e : HintedError) (hs : List String) : HintedError := hs.foldl withHint e

/-- Attaches a hint to the error that is being built. -/
def hint (h : String) : StateM HintedError Unit := modify fun e => e.withHint h

/-- The message, followed by each hint in parentheses. -/
def display (e : HintedError) : String :=
  e.hints.foldl (fun text h => text ++ " (hint: " ++ h ++ ")") e.message

end HintedError

/-- Causes of failure that can be reported with hints. -/
class ToHintedError (ε : Type) where
  /-- The report of a cause. -/
  toHintedError : ε → HintedError

instance : ToHintedError HintedError := ⟨id⟩

instance : ToHintedError String := ⟨HintedError.ofMessage⟩

namespace HintedError

variable {ε α : Type} [ToHintedError ε]

/-- The result, with its error turned into a report. -/
def ofResult (r : Except ε α) : Except HintedError α :=
  r.mapError ToHintedError.toHintedError

/-- The result, with a hint attached to its error. -/
def attach (r : Except ε α) (h : String) : Except HintedError α :=
  r.mapError fun e => (ToHintedError.toHintedError e).withHint h

end HintedError

end TokenHighlight
