import Parley.CommandLine.Session.Basic

/-!
# A row of echoes

Sends one echo after the other to a server and measures how long each takes to come back. The next
one is sent a second after the last came back or was given up.
-/

namespace Parley

namespace CommandLine

/-- Where a row of echoes stands. -/
inductive EchoPhase
  | due
  | away (since : Nat)
  | pausing (stop : Nat)
deriving DecidableEq, Repr

/-- A row of echoes. -/
structure Echoes where
  server : Address
  count : Nat
  /-- Number of echoes that are through. -/
  seq : Nat
  trips : List Nat
  phase : EchoPhase
deriving DecidableEq, Repr

namespace Echoes

/-- A row before its first echo. -/
def new (server : Address) (count : Nat) : Echoes := ⟨server, count, 0, [], .due⟩

def patience : Nat := 5 * second

def advance (e : Echoes) (now : Nat) : Echoes :=
  { e with
    seq := e.seq + 1
    phase := if e.seq + 1 < e.count then .pausing (now + second) else .due }

def summary (e : Echoes) : String :=
  let total := e.trips.foldl (· + ·) 0
  Report.echoes e.count e.trips.length (Report.decimal (1000000 * e.trips.length) 3 total)

def sendNext (e : Echoes) (st : TaskStation) (now : Nat) : Step Echoes :=
  let (node, result) := st.node.request e.server Requests.pingMessage e.seq
  match result with
  | .ok () => ⟨{ e with phase := .away now }, { st with node := node }, [], .goesOn⟩
  | .error cause => ⟨e, { st with node := node }, [], .failed (.network cause)⟩

/-- Looks whether an echo is back that was sent at `since`. -/
def await (e : Echoes) (st : TaskStation) (now since : Nat) : Step Echoes :=
  let trip := now - since
  if st.node.answers.any (·.1 == e.seq) then
    ⟨{ e.advance now with trips := e.trips ++ [trip] }, st.modify ({ · with answers := [] }),
      [.line (Report.echoed e.server e.seq (Report.millis trip))], .goesOn⟩
  else if patience ≤ trip then
    ⟨e.advance now, st.modify fun n => (n.cancel e.seq).1,
      [.line (Report.notEchoed e.server e.seq)], .goesOn⟩
  else ⟨e, st, [], .goesOn⟩

/-- What is done in a turn. A row that is cut short tells nothing. -/
def step (e : Echoes) (st : TaskStation) (o : Outside) : Step Echoes :=
  if o.interrupted then ⟨e, st, [], .done⟩
  else match e.phase with
    | .due =>
      if e.seq < e.count then e.sendNext st o.now else ⟨e, st, [.line e.summary], .done⟩
    | .away since => e.await st o.now since
    | .pausing stop =>
      ⟨if stop ≤ o.now then { e with phase := .due } else e, st, [], .goesOn⟩

end Echoes

end CommandLine

end Parley
