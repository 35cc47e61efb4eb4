import TokenHighlight.CommandLine.Arguments

/-!
# Writing arguments

`Arguments.toList` writes the arguments of a run as a user would: the options of the program, the
command with its options, and its operands after two dashes.
-/

namespace TokenHighlight

/-- The options of a command. -/
def Command.options : Command → List String
  | classify _ => []
  | table format => ["--format=" ++ format.word]
  | check _ format? => (format?.map fun f => "--format=" ++ f.word).toList
  | highlight _ tokens output? format =>
      ["--format=" ++ format.word, "--tokens=" ++ tokens] ++
        (output?.map fun path => "--output=" ++ path).toList

/-- The name of a command. -/
def Command.name : Command → String
  | classify _ => "classify"
  | table _ => "table"
  | check _ _ => "check"
  | highlight _ _ _ _ => "highlight"

/-- The operands of a command. -/
def Command.operands : Command → List String
  | classify kinds => kinds
  | table _ => []
  | check tokens _ => [tokens]
  | highlight input _ _ _ => [input]

/-- The operands after two dashes, if there are any. -/
def Command.operandList (c : Command) : List String :=
  match c.operands with
  | [] => []
  | operands => "--" :: operands

namespace Arguments

/-- The options before the command. -/
def options (a : Arguments) : List String :=
  List.replicate a.verbosity "-v" ++ ["--color=" ++ a.color.word] ++
    (a.config?.map fun path => "--config=" ++ path).toList

/-- The arguments as a list of words. -/
def toList (a : Arguments) : List String :=
  a.options ++ a.command.name :: a.command.options ++ a.command.operandList

end Arguments

end TokenHighlight
