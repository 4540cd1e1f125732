import Parley.CommandLine.Usage
import Parley.Host

/-!
# The program

Reads the command line, decides what to do and has it done. What goes wrong while it is done is told
to the user. Only a command line that makes no sense, or a failure that breaks the program off, gives
an exit code other than zero.
-/

namespace Parley

namespace CommandLine

/-- Decides what to do. The configuration file is read first, if there is one. -/
def planOf (m : Matches) : IO (Except Failure Plan) := do
  match m.value? .config with
  | none => return Plan.ofMatches (fun _ => .error .noSuchFile) m
  | some path =>
    let text ← Host.readFile path
    return Plan.ofMatches (fun _ => text) m

def run (m : Matches) : IO (Option Failure) := do
  match ← planOf m with
  | .error failure => return some failure
  | .ok plan => Host.execute plan

end CommandLine

end Parley

open Parley.CommandLine in
def main (args : List String) : IO UInt32 := do
  match Matches.ofWords args with
  | .error refusal =>
    if refusal.isAnswer then
      refusal.lines.forM (IO.println ·)
      return 0
    else
      refusal.lines.forM (IO.eprintln ·)
      return 1
  | .ok m =>
    match ← run m with
    | none => return 0
    | some failure =>
      failure.lines.forM (IO.println ·)
      if failure.isFatal then
        IO.eprintln failure.message
        return 101
      return 0
