import Parley.CommandLine.Session.Basic

/-!
# Taking part in a chat

Says in a room what the user types and shows what is said there, until the user has no more to say
or the server is gone.
-/

namespace Parley

namespace CommandLine

/-- Taking part in a chat. -/
structure Conversation where
  server : Address
  room : String
  name : String
  /-- When to look whether the server is still there. -/
  check : Timer
deriving DecidableEq, Repr

namespace Conversation

def start (st : TaskStation) (server : Address) (room name : String) (now : Nat) :
    Except Failure (Conversation × TaskStation) :=
  match st.attempt (Chat.join · room) with
  | .ok st => .ok (⟨server, room, name, .start now second⟩, st)
  | .error cause => .error (.network cause)

def say (c : Conversation) (st : TaskStation) (line : String) : Except Error TaskStation :=
  match Report.said? c.name line with
  | some msg => st.attempt (Chat.say · msg c.room)
  | none => .ok st

def leave (c : Conversation) (st : TaskStation) : Step Conversation :=
  match st.attempt (Chat.leave · c.room) with
  | .ok st => ⟨c, st, [], .done⟩
  | .error cause => ⟨c, st, [], .failed (.network cause)⟩

def checkServer (c : Conversation) (st : TaskStation) (now : Nat) : Step Conversation :=
  let (check, due) := c.check.look now
  let c := { c with check := check }
  if due && !st.net.isConnected c.server then ⟨c, st, [.line Report.serverLost], .done⟩
  else ⟨c, st, [], .goesOn⟩

def step (c : Conversation) (st : TaskStation) (o : Outside) : Step Conversation :=
  let heard := st.node.heard.map fun h => Output.line (Report.heard h)
  let st := st.modify ({ · with heard := [] })
  let last : Step Conversation := match o.typed.foldlM c.say st with
    | .error cause => ⟨c, st, [], .failed (.network cause)⟩
    | .ok st =>
      if o.typedOut || o.interrupted then c.leave st else c.checkServer st o.now
  { last with output := heard ++ last.output }

end Conversation

end CommandLine

end Parley
