import Parley.CommandLine.Matches

/-!
# How to use the program

The help text, and the answers to command lines that lead to no action.
-/

namespace Parley

namespace CommandLine

namespace Usage

def title : String := "parley 0.1.0"

def row (word meaning : String) : String :=
  "    " ++ word ++ String.ofList (List.replicate (24 - word.length) ' ') ++ meaning

/-- What an option is for, and what it is worth where it is left out. -/
def optionRow (s : Setting) : String :=
  row ("-" ++ String.singleton s.letter ++ ", --" ++ s.long ++ " <value>")
    (s.purpose ++
      match s.fallback? with
      | some value => " [default: " ++ value ++ "]"
      | none => "")

/-- The options of a subcommand that not every subcommand has. -/
def ownSettings (sub : Subcommand) : List Setting :=
  sub.settings.filter (!Setting.common.contains ·)

def subcommandRows (sub : Subcommand) : List String :=
  row (sub.name ++ " <address>") sub.purpose :: (ownSettings sub).map optionRow

def lines : List String :=
  [title, "Run chat servers, grid coordinators and workers from the command line.", "",
    "USAGE:", "    parley [OPTIONS] <SUBCOMMAND>", "", "OPTIONS:"] ++
  Setting.common.map optionRow ++
  [row "-h, --help" "Print this text", row "-V, --version" "Print the version", "",
    "SUBCOMMANDS:"] ++
  Subcommand.all.flatMap subcommandRows

end Usage

namespace Refusal

/-- Whether the user gets what they asked for. -/
def isAnswer : Refusal → Bool
  | help | version => true
  | _ => false

def lines : Refusal → List String
  | help | noSubcommand => Usage.lines
  | version => [Usage.title]
  | misspelledSubcommand word => ["error: there is no subcommand '" ++ word ++ "', only similar ones"]
  | noSuchSubcommand word => ["error: there is no subcommand '" ++ word ++ "'"]
  | unknownWord word => ["error: unexpected argument '" ++ word ++ "'"]
  | noAddress => ["error: the address is missing"]
  | noValue s => ["error: option '--" ++ s.long ++ "' needs a value"]
  | repeated s => ["error: option '--" ++ s.long ++ "' is given more than once"]

end Refusal

end CommandLine

end Parley
