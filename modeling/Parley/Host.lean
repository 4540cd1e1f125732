import Parley.CommandLine.Session
import Std.Async.DNS
import Std.Async.Signal
import Std.Async.System
import Std.Async.TCP

/-!
# The host

Carries out what sessions ask for: sockets, the terminal, threads for computations, and the clock.
Nothing is decided here. Reads and computations run by themselves, and a turn of a session takes
what has come of them; writes are handed over to the host at once.
-/

namespace Parley

namespace Host

open Std.Net
open Std.Async (AsyncTask)
open Std.Async.TCP
open CommandLine (Failure Outside Output Plan Session Verbosity)

def socketAddress (a : Address) : SocketAddress :=
  match a.host with
  | .v4 octets => .v4 ⟨⟨octets⟩, a.port⟩
  | .v6 groups _ => .v6 ⟨⟨groups⟩, a.port⟩

def addressOf (host : IPAddr) (port : UInt16) : Address :=
  match host with
  | .v4 ip => ⟨.v4 ip.octets, port⟩
  | .v6 ip => ⟨.v6 ip.segments 0, port⟩

def ofSocketAddress (a : SocketAddress) : Address :=
  addressOf a.ipAddr a.port

/-- The number of a failure. Those of sockets come as negative numbers. -/
def codeOf? : IO.Error → Option Nat
  | .resourceBusy code _ | .noSuchThing _ code _ | .resourceVanished code _
  | .noFileOrDirectory _ code _ | .otherError code _ => some (min code.toNat (0 - code).toNat)
  | _ => none

/-- A failure as a fault. -/
def faultOf (e : IO.Error) : HostFault :=
  ((codeOf? e).bind HostFault.ofCode?).getD (.other (toString e))

/-- Tries an action, and takes a failure as a fault. -/
def attempt {α : Type} (action : IO α) : IO (Except HostFault α) := do
  try
    return .ok (← action)
  catch e =>
    return .error (faultOf e)

/-- A stream to a peer. -/
structure Link where
  address : Address
  socket : Socket.Client
  reading : AsyncTask (Option ByteArray)
  writing : List (AsyncTask Unit)

namespace Link

def read (socket : Socket.Client) (config : NetworkConfig) : IO (AsyncTask (Option ByteArray)) :=
  (socket.recv? (max config.readBuffer 1).toUInt64).toIO

def ofSocket (config : NetworkConfig) (socket : Socket.Client) : IO Link := do
  socket.noDelay
  let address := ofSocketAddress (← socket.getPeerName)
  return ⟨address, socket, ← read socket config, []⟩

def readOutcomes (l : Link) (config : NetworkConfig) : IO (Link × List ReadOutcome) := do
  if ← IO.hasFinished l.reading then
    match l.reading.get with
    | .ok (some bytes) => return ({ l with reading := ← read l.socket config }, [.data bytes.toList])
    | .ok none => return (l, [.endOfStream])
    | .error e => return (l, [.failed (faultOf e)])
  else return (l, [])

def unlimited : Nat := 18446744073709551615

/-- What the next write will come to: it is taken, unless an earlier one has failed. -/
def writeOutcomes (l : Link) : IO (Link × List WriteOutcome) := do
  let ended ← l.writing.filterM fun t => IO.hasFinished t
  let pending ← l.writing.filterM fun t => return !(← IO.hasFinished t)
  let fault := ended.findSome? fun t =>
    match t.get with
    | .ok () => none
    | .error e => some (faultOf e)
  return ({ l with writing := pending },
    match fault with
    | some fault => [.failed fault]
    | none => [.accepted unlimited])

def write (l : Link) (bytes : Bytes) : IO Link := do
  if bytes.isEmpty then return l
  return { l with writing := l.writing ++ [← (l.socket.send ⟨bytes.toArray⟩).toIO] }

end Link

/-- What a session deals with. -/
structure World where
  config : NetworkConfig
  verbosity : Verbosity
  listener : Option Socket.Server
  links : List Link
  closing : List (AsyncTask Unit)
  computing : List (Nat × Task Computed)
  typing : Option (Task (Except IO.Error String))
  interrupt : AsyncTask Int

namespace World

def readLine : BaseIO (Task (Except IO.Error String)) :=
  IO.asTask (do (← IO.getStdin).getLine) .dedicated

def maxAccepts : Nat := 64

def accept (w : World) : IO (List Link) := do
  let some listener := w.listener | return []
  let mut links := []
  for _ in List.range maxAccepts do
    let some socket ← listener.tryAccept | break
    if let .ok link ← attempt (Link.ofSocket w.config socket) then links := links ++ [link]
  return links

/-- The line that was typed, if it is there, and whether it was the last. -/
def takeLine (w : World) : IO (World × List String × Bool) := do
  let some typing := w.typing | return (w, [], false)
  if !(← IO.hasFinished typing) then return (w, [], false)
  match typing.get with
  | .ok "" => return (w, [], true)
  | .ok line => return ({ w with typing := some (← readLine) }, [line], false)
  | .error _ => return (w, [], true)

/-- What has come from outside since the last turn. -/
def observe (w : World) : IO (World × Outside) := do
  let now ← IO.monoNanosNow
  let mut links := []
  let mut reads := []
  let mut writes := []
  for link in w.links do
    let (link, r) ← link.readOutcomes w.config
    let (link, o) ← link.writeOutcomes
    links := links ++ [link]
    reads := (link.address, r) :: reads
    writes := (link.address, o) :: writes
  let new ← w.accept
  for link in new do
    writes := (link.address, [.accepted Link.unlimited]) :: writes
  let (w, typed, typedOut) ← { w with links := links ++ new }.takeLine
  let ended ← w.computing.filterM fun (_, t) => IO.hasFinished t
  let running ← w.computing.filterM fun (_, t) => return !(← IO.hasFinished t)
  let streams : Streams :=
    ⟨now / 1000000, new.map (·.address), fun a => (reads.lookup a).getD [],
      fun a => (writes.lookup a).getD []⟩
  return ({ w with computing := running },
    ⟨now, streams, typed, typedOut, ← IO.hasFinished w.interrupt,
      ended.map fun (thread, t) => (thread, t.get)⟩)

def tell (lines : List String) : IO Unit := do
  lines.forM (IO.println ·)
  (← IO.getStdout).flush

def touch (w : World) : Effect → IO World
  | .dispatch _ => return w
  | .write a bytes => do
    let links ← w.links.mapM fun l => if l.address == a then l.write bytes else pure l
    return { w with links := links }
  | .close a => do
    let (gone, links) := w.links.partition (·.address == a)
    let closing ← gone.mapM fun l => l.socket.shutdown.toIO
    return { w with links := links, closing := w.closing ++ closing }

def perform (w : World) : Output → IO World
  | .line text => do
    tell [text]
    return w
  | .notice n => do
    if w.verbosity.shows n.level then IO.eprintln n.line
    return w
  | .stream effect => w.touch effect
  | .compute thread work =>
    return { w with computing := w.computing ++ [(thread, Task.spawn work .dedicated)] }

/-- How many milliseconds the streams get to close. -/
def closingTime : Nat := 1000

def settle (w : World) : IO Unit := do
  for _ in List.range closingTime do
    if ← w.closing.allM fun t => IO.hasFinished t then return
    IO.sleep 1

end World

/-- Takes turns until a session is over. -/
partial def run (w : World) (s : Session) : IO (Option Failure) := do
  let (w, outside) ← w.observe
  let turn := s.turn outside
  let w ← turn.output.foldlM World.perform w
  match turn.standing with
  | .goesOn =>
    IO.sleep w.config.pollWait.toUInt32
    run w turn.session
  | .done =>
    w.settle
    return none
  | .failed cause =>
    w.settle
    return some cause

def resolve : Endpoint → IO (Except HostFault (List Address))
  | .at address => return .ok [address]
  | .named host port => do
    match ← attempt (Std.Async.DNS.getAddrInfo host (toString port)).block with
    | .ok hosts => return .ok (hosts.toList.map (addressOf · port))
    | .error _ => return .error .unknownHost

/-- Tries one address after the other. The last failure counts. -/
def firstOf {α : Type} (action : Address → IO α) : List Address → IO (Except HostFault α)
  | [] => return .error .unknownHost
  | [a] => attempt (action a)
  | a :: rest => do
    match ← attempt (action a) with
    | .ok x => return .ok x
    | .error _ => firstOf action rest

def listen (a : Address) : IO Socket.Server := do
  let server ← Socket.Server.mk
  server.bind (socketAddress a)
  server.listen 128
  return server

def connect (a : Address) : IO Socket.Client := do
  let client ← Socket.Client.mk
  (client.connect (socketAddress a)).block
  return client

def openNetwork (p : Plan) (interrupt : AsyncTask Int) : IO (Except HostFault (Network × World)) := do
  let world : World := ⟨p.network, p.verbosity, none, [], [], [], none, interrupt⟩
  match ← resolve p.endpoint with
  | .error fault => return .error fault
  | .ok addresses =>
    if p.task.connects then
      match ← firstOf connect addresses with
      | .error fault => return .error fault
      | .ok socket => attempt do
        let link ← Link.ofSocket p.network socket
        let here := ofSocketAddress (← socket.getSockName)
        return (.new .client p.network here (some link.address), { world with links := [link] })
    else
      match ← firstOf listen addresses with
      | .error fault => return .error fault
      | .ok server => attempt do
        let here := ofSocketAddress (← server.getSockName)
        return (.new .server p.network here none, { world with listener := some server })

def execute (p : Plan) : IO (Option Failure) := do
  let interrupt ← (← Std.Async.Signal.Waiter.mk .sigint true).wait
  match ← openNetwork p interrupt with
  | .error fault => return some (.network (.host fault))
  | .ok (net, world) =>
    let processors := (← Std.Async.System.getCPUInfo).size
    match Session.start p.task net (← IO.monoNanosNow) processors with
    | .error cause => return some cause
    | .ok (session, greeting) =>
      World.tell greeting.toList
      let typing ← match p.task with
        | .chat .. => some <$> World.readLine
        | _ => pure none
      run { world with typing := typing } session

def readFile (path : String) : IO (Except HostFault String) :=
  attempt (IO.FS.readFile path)

end Host

end Parley
