import Parley.Network.Connection
import Parley.Pool

/-!
# The loop of a network

Owns the connections. A round accepts new ones, carries out commands, sends signs of life, reads,
writes, drops silent connections and brings the table up to date. What the streams yield and the
time are inputs of a round (`Streams`); what goes to them and to the services is its output.

- `Loop.poll` is one round. `Loop.finish` is what happens once the network is shut down: commands
  that were queued before are still carried out, and everything is flushed and closed.
-/

namespace Parley

/-- What the outside yields during one round. -/
structure Streams where
  now : Nat
  accepted : List Address
  reads : Address → List ReadOutcome
  writes : Address → List WriteOutcome

/-- A round in which nothing comes from outside. -/
def Streams.quiet (now : Nat) : Streams := ⟨now, [], fun _ => [], fun _ => []⟩

/-- What a loop does to the outside. -/
inductive Effect
  | dispatch (letter : Letter)
  | write (address : Address) (bytes : Bytes)
  /-- Shuts a stream down. -/
  | close (address : Address)
deriving DecidableEq, Repr

/-- The loop of a network. -/
structure Loop where
  /-- What the users of the network see, and the commands they queued. -/
  net : Network
  connections : List Connection
  lastHeartbeat : Nat
  /-- All that was done so far. -/
  effects : List Effect
  journal : List Notice
deriving DecidableEq, Repr

namespace Loop

def get? (l : Loop) (a : Address) : Option Connection :=
  l.connections.find? (·.info.address == a)

def put (l : Loop) (c : Connection) : Loop :=
  { l with
    connections := l.connections.map fun d =>
      if d.info.address == c.info.address then c else d }

def emit (l : Loop) (es : List Effect) : Loop :=
  { l with effects := l.effects ++ es }

def add (l : Loop) (now : Nat) (a : Address) : Loop :=
  { l with
    net := { l.net with table := l.net.table.put (.new a now) }
    connections :=
      l.connections.filter (·.info.address != a) ++ [.new a now l.net.config.maxFrame] }

def new (net : Network) (now : Nat) : Loop :=
  net.remoteAddress.toList.foldl (fun l a => l.add now a)
    ⟨{ net with table := [] }, [], now, [], []⟩

/-- Removes a connection, its stream and its entry in the table. -/
def remove (l : Loop) (a : Address) : Loop :=
  match l.get? a with
  | none => l
  | some _ =>
    let l := { l with
      net := { l.net with table := l.net.table.erase a }
      connections := l.connections.filter (·.info.address != a) }.emit [.close a]
    if l.net.remoteAddress = some a then { l with journal := l.journal ++ [.lostServer a] } else l

def accept (l : Loop) (s : Streams) : Loop :=
  s.accepted.foldl (fun l a => l.add s.now a) l

/-- Writes what a connection has to send. The flag tells whether the stream still works. -/
def flushOne (l : Loop) (s : Streams) (a : Address) : Loop × Bool :=
  match l.get? a with
  | none => (l, true)
  | some c =>
    let (c, written, fault) := c.flush (s.writes a)
    ((l.put c).emit [.write a written], fault.isNone)

def enqueueAll (l : Loop) (bytes : Bytes) : Loop :=
  { l with connections := l.connections.map (·.enqueue bytes) }

/-- Carries out a command other than the one to shut down. -/
def perform (l : Loop) (s : Streams) : Command → Loop
  | .send a bytes =>
    match l.get? a with
    | some c => l.put (c.enqueue bytes)
    | none => l
  | .broadcast bytes => l.enqueueAll bytes
  | .close a => (l.flushOne s a).1.remove a
  | .shutdown => l

/-- Carries out the queued commands. One to shut down leaves those behind it in the queue. -/
def performAll (l : Loop) (s : Streams) : List Command → Loop
  | [] => { l with net := { l.net with queue := [] } }
  | .shutdown :: rest => { l with net := { l.net with queue := rest } }
  | c :: rest => performAll (l.perform s c) s rest

def handleCommands (l : Loop) (s : Streams) : Loop :=
  l.performAll s l.net.queue

def heartbeatBytes : Bytes :=
  Frame.toBytes ⟨MessageKind.keepAlive.code, 0, []⟩

def sendHeartbeats (l : Loop) (s : Streams) : Loop :=
  match l.net.config.heartbeat with
  | none => l
  | some interval =>
    if s.now - l.lastHeartbeat < interval then l
    else { l with lastHeartbeat := s.now }.enqueueAll heartbeatBytes

/-- Reads from one connection and dispatches its messages. The flag tells whether the connection
goes on: it does not if its stream is at an end, or if a frame is bad. A stream that fails leaves
what has come unread. -/
def readOne (l : Loop) (s : Streams) (a : Address) : Loop × Bool :=
  match l.get? a with
  | none => (l, true)
  | some c =>
    let (c, ending) := c.readAvailable (s.reads a)
    match ending with
    | .failed _ => (l.put c, false)
    -- a stream that has come to its end may have brought whole frames before
    | _ =>
      let (c, ms, fault) := c.decode l.net.config s.now
      ((l.put c).emit (ms.map fun m => .dispatch ⟨a, m⟩), ending = .open && fault.isNone)

/-- Does something with every connection, and removes those that do not go on. -/
def forEach (l : Loop) (f : Loop → Address → Loop × Bool) : Loop :=
  let (l, closed) := (l.connections.map (·.info.address)).foldl
    (fun (l, closed) a =>
      let (l, goesOn) := f l a
      (l, if goesOn then closed else closed ++ [a])) (l, [])
  closed.foldl remove l

def readAll (l : Loop) (s : Streams) : Loop :=
  l.forEach fun l a => l.readOne s a

def writeAll (l : Loop) (s : Streams) : Loop :=
  l.forEach fun l a => l.flushOne s a

def dropIdle (l : Loop) (s : Streams) : Loop :=
  match l.net.config.idleTimeout with
  | none => l
  | some timeout =>
    ((l.connections.filter fun c => timeout < s.now - c.info.lastReceived).map
      (·.info.address)).foldl remove l

/-- Tells the table what it does not know yet. -/
def publish (l : Loop) : Loop :=
  { l with
    net := { l.net with
      table := (l.connections.filter (·.dirty)).foldl (fun t c => t.put c.info) l.net.table }
    connections := l.connections.map fun c => { c with dirty := false } }

def poll (l : Loop) (s : Streams) : Loop :=
  ((((((l.accept s).handleCommands s).sendHeartbeats s).readAll s).writeAll s).dropIdle s).publish

def closeAll (l : Loop) (s : Streams) : Loop :=
  -- a stream that fails now is closed like the others
  let l := (l.connections.map (·.info.address)).foldl
    (fun l a => (l.flushOne s a).1.emit [.close a]) l
  { l with net := { l.net with table := [] }, connections := [] }

/-- Ends the loop: commands queued before go out, and everything is flushed and closed. -/
def finish (l : Loop) (s : Streams) : Loop :=
  let l := (l.handleCommands s).closeAll s
  { l with net := l.net.hangUp }

end Loop

end Parley
