import Parley.Notice
import Parley.Message.Basic

/-!
# A pool of workers

Each worker has a lane of its own; the sender of a message decides the lane, so what one sender
sends is handled in its order. A message whose handling fails is written down and the lane goes on.

- `Pool.process` puts a message on its lane, `Pool.step` lets one lane handle its first message.
- `Pool.finish` lets every lane run empty, which is what shutting down waits for.
-/

namespace Parley

/-- A message and who sent it. -/
structure Letter where
  sender : Address
  message : Message
deriving DecidableEq, Repr

/-- How the handling of a message ends. -/
inductive Handled
  | ok
  | failed (cause : Error)
  /-- It broke off, with a text if there is one. -/
  | broke (reason : Option String)
deriving DecidableEq, Repr

/-- A number for an address, to spread the senders over lanes. -/
def Address.spread (a : Address) : Nat :=
  let parts : List Nat := match a.host with
    | .v4 octets => octets.toList.map (·.toNat)
    | .v6 groups scope => scope.toNat :: groups.toList.map (·.toNat)
  (parts ++ [a.port.toNat]).foldl (fun acc n => acc * 31 + n) 7

namespace Handled

/-- The reason that is shown where there is none. -/
def unknownReason : String := "unknown panic"

/-- What is written down about the handling of a message. -/
def notice? (l : Letter) : Handled → Option Notice
  | ok => none
  | failed cause => some (.handlingFailed l.message.kind l.sender cause)
  | broke reason => some (.handlingBroke l.message.kind l.sender (reason.getD unknownReason))

end Handled

/-- A pool. What the workers do to the rest of the world is kept in `state`. -/
structure Pool (σ : Type) where
  worker : σ → Letter → σ × Handled
  /-- The lane of a sender. -/
  laneOf : Address → Nat
  state : σ
  lanes : List (List Letter)
  accepting : Bool
  handled : List (Nat × Letter)
  journal : List Notice

namespace Pool

variable {σ : Type}

/-- A pool with at least one lane. -/
def new (worker : σ → Letter → σ × Handled) (laneOf : Address → Nat) (state : σ) (threads : Nat) :
    Pool σ :=
  ⟨worker, laneOf, state, List.replicate (max threads 1) [], true, [], []⟩

/-- Number of workers. -/
def threads (p : Pool σ) : Nat :=
  if p.accepting then p.lanes.length else 0

def process (p : Pool σ) (l : Letter) : Pool σ :=
  if p.accepting then
    { p with lanes := p.lanes.modify (p.laneOf l.sender % p.lanes.length) (· ++ [l]) }
  else { p with journal := p.journal ++ [.poolShutDown l.sender] }

/-- Lets a lane handle its first message, if it has one. -/
def step (p : Pool σ) (lane : Nat) : Pool σ :=
  match p.lanes[lane]? with
  | some (l :: rest) =>
    let (state, outcome) := p.worker p.state l
    { p with
      state := state
      lanes := p.lanes.set lane rest
      handled := p.handled ++ [(lane, l)]
      journal := p.journal ++ (outcome.notice? l).toList }
  | _ => p

/-- Lets a lane handle a number of messages. -/
def runLane (lane : Nat) : Nat → Pool σ → Pool σ
  | 0, p => p
  | n + 1, p => runLane lane n (p.step lane)

def close (p : Pool σ) : Pool σ :=
  { p with accepting := false }

def finish (p : Pool σ) : Pool σ :=
  (List.range p.lanes.length).foldl
    (fun p lane => p.runLane lane ((p.lanes[lane]?.map (·.length)).getD 0)) p

/-- Shuts the pool down: it takes no more messages, and those it has are handled. -/
def shutdown (p : Pool σ) : Pool σ :=
  p.close.finish

/-- The messages of a sender that were handled, in their order. -/
def handledFrom (p : Pool σ) (a : Address) : List Message :=
  (p.handled.filter (·.2.sender == a)).map (·.2.message)

def lanesOf (p : Pool σ) (a : Address) : List Nat :=
  ((p.handled.filter (·.2.sender == a)).map (·.1)).eraseDups

end Pool

end Parley
