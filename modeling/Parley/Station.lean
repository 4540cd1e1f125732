import Parley.Network.Loop
import Parley.Node

/-!
# A node and its loop

The loop of a network brings messages to the services of a node, and what the services send goes to
the loop. Both work on one network, which each hands to the other.

- `Station.turn` is a round of the loop and the handling of all messages that it brought.
- `Station.shutDown` ends the loop: what the services have sent before still goes out.
-/

namespace Parley

/-- A node and its loop. The network is the one of the node's site. -/
structure Station (σ γ υ : Type) where
  node : Node σ γ υ
  loop : Loop

namespace Station

variable {σ γ υ : Type}

def new (net : Network) (now : Nat) : Station σ γ υ :=
  let loop := Loop.new net now
  ⟨.new loop.net, loop⟩

def net (st : Station σ γ υ) : Network := st.node.site.net

/-- Lets the services handle a message. A failure is written down. -/
def receive (services : Services σ γ υ) (node : Node σ γ υ) (l : Letter) : Node σ γ υ :=
  match node.handle services l.sender l.message with
  | (node, .ok ()) => node
  | (node, .error e) =>
    { node with site := node.site.note (.handlingFailed l.message.kind l.sender e) }

def letters (effects : List Effect) : List Letter :=
  effects.filterMap fun
    | .dispatch l => some l
    | .write .. | .close _ => none

def streamEffects (effects : List Effect) : List Effect :=
  effects.filter fun
    | .dispatch _ => false
    | .write .. | .close _ => true

/-- The loop with the network as the services have left it, about to begin something new. -/
def resume (st : Station σ γ υ) : Loop :=
  { st.loop with net := st.net, effects := [], journal := [] }

/-- The station after its loop has done something, and what it did to the streams. -/
def settle (services : Services σ γ υ) (st : Station σ γ υ) (loop : Loop) :
    Station σ γ υ × List Effect :=
  let site : Site := ⟨loop.net, st.node.site.journal ++ loop.journal⟩
  let node := (letters loop.effects).foldl (receive services) { st.node with site := site }
  (⟨node, loop⟩, streamEffects loop.effects)

def turn (services : Services σ γ υ) (st : Station σ γ υ) (s : Streams) :
    Station σ γ υ × List Effect :=
  st.settle services (st.resume.poll s)

/-- Shuts the network down and ends the loop. -/
def shutDown (services : Services σ γ υ) (st : Station σ γ υ) (s : Streams) :
    Station σ γ υ × List Effect :=
  let loop := st.resume
  st.settle services ({ loop with net := loop.net.stop }.finish s)

def modify (st : Station σ γ υ) (f : Node σ γ υ → Node σ γ υ) : Station σ γ υ :=
  { st with node := f st.node }

def attempt (st : Station σ γ υ) (f : Network → Except Error Network) :
    Except Error (Station σ γ υ) :=
  (f st.net).map fun net => st.modify fun n => { n with site := { n.site with net := net } }

end Station

end Parley
