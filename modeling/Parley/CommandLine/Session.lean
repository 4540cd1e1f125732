import Parley.CommandLine.Session.Conversation
import Parley.CommandLine.Session.Echoes
import Parley.CommandLine.Session.Search

/-!
# A running task

What the program is at, and the station it is at it with. A session starts once the network is there
and goes on in turns until it is over; at its end everything that was sent goes out.

- `Session.start` begins with a plan, `Session.turn` is one turn.
-/

namespace Parley

namespace CommandLine

/-- What the program is at. -/
inductive Activity
  | serveChat
  | chat (c : Conversation)
  | coordinate (c : Coordinating)
  | work (k : Working)
  | ping (e : Echoes)

namespace Activity

def step (a : Activity) (st : TaskStation) (o : Outside) : Step Activity :=
  match a with
  | serveChat =>
    let st := st.modify ({ · with heard := [] })
    if o.interrupted then ⟨serveChat, st, [.line Report.interrupted], .done⟩
    else ⟨serveChat, st, [], .goesOn⟩
  | chat c => lift chat (c.step st o)
  | coordinate c => lift coordinate (c.step st o)
  | work k => lift work (k.step st o)
  | ping e => lift ping (e.step st o)
where
  lift {τ : Type} (f : τ → Activity) (s : Step τ) : Step Activity :=
    ⟨f s.task, s.station, s.output, s.standing⟩

end Activity

/-- A running task. -/
structure Session where
  activity : Activity
  station : TaskStation

namespace Session

/-- Starts a task on a network that was just set up. A client has a server there. Where a number of
threads is not chosen, `processors` counts. What is told at the start comes with the session. -/
def start (task : Task) (net : Network) (now processors : Nat) :
    Except Failure (Session × Option String) := do
  let st := Station.new net (now / 1000000)
  let server := net.remoteAddress.getD net.localAddress
  match task with
  | .serveChat _ =>
    let st := st.modify ({ · with chat := some .empty })
    pure (⟨.serveChat, st⟩, Report.servingChat net.localAddress)
  | .chat room name =>
    let (c, st) ← Conversation.start st server room name now
    pure (⟨.chat c, st⟩, Report.joined room name server)
  | .coordinate params grid _ =>
    match Primes.rangesNeeded params with
    | none => throw .tooManyRanges
    | some needed =>
      let (c, st) := Coordinating.start st params needed grid now
      pure (⟨.coordinate c, st⟩, Report.searching params needed net.localAddress)
  | .work threads =>
    let threads := threads.getD processors
    let (k, st) ← Working.start st server threads now
    pure (⟨.work k, st⟩, Report.working server threads)
  | .ping count => pure (⟨.ping (.new server count), st⟩, none)

/-- What a turn leaves behind. -/
structure Turn where
  session : Session
  output : List Output
  standing : Standing

def Turn.lines (t : Turn) : List String :=
  t.output.filterMap fun
    | .line text => some text
    | .notice _ | .stream _ | .compute .. => none

/-- One turn. A session that is over shuts its network down. -/
def turn (s : Session) (o : Outside) : Turn :=
  let (station, effects) := s.station.turn (services o.now) o.streams
  let step := s.activity.step station o
  let (station, last) := match step.standing with
    | .goesOn => (step.station, [])
    | .done | .failed _ => step.station.shutDown (services o.now) o.streams
  let notices := station.node.site.journal.map Output.notice
  let station := station.modify fun n => { n with site := { n.site with journal := [] } }
  ⟨⟨step.task, station⟩, (effects.map .stream) ++ notices ++ step.output ++ (last.map .stream),
    step.standing⟩

end Session

end CommandLine

end Parley
