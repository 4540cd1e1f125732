import Parley.Chat
import Parley.Requests
import Parley.Sync

/-!
# A node

A node brings every message to where it belongs: signs of life are dropped, echoes are sent back,
answers go to the requests that wait for them, and all others to the services. Chat and sync
services come into being when they are first needed; grid and user services have to be set.

- `Node.handle` handles one message. `Node.request` and `Node.cancel` are for those who wait for
  answers.
-/

namespace Parley

/-- How a service handles a message: its new state, what it did, and whether it failed. -/
abbrev Handling (τ : Type) := τ → Site → Address → Message → τ × Site × Except Error Unit

/-- What the services of a node are made of: the objects it shares, and the handling of grid and
user messages. -/
structure Services (σ γ υ : Type) where
  objects : SyncBehaviour σ
  grid : Handling γ
  user : Handling υ

/-- A node. -/
structure Node (σ γ υ : Type) where
  site : Site
  requests : Requests
  chat : Option Rooms
  sync : Option (SyncTable σ)
  grid : Option γ
  users : List (String × υ)
  heard : List Heard
  answers : List (Ticket × Message)

namespace Node

variable {σ γ υ : Type}

/-- A node without services. -/
def new (net : Network) : Node σ γ υ :=
  ⟨.new net, .empty, none, none, none, [], [], []⟩

/-- The chat service, a new one if there is none. -/
def chatOrDefault (n : Node σ γ υ) : Rooms :=
  n.chat.getD .empty

/-- The sync service, a new one if there is none. -/
def syncOrDefault (n : Node σ γ υ) : SyncTable σ :=
  n.sync.getD .empty

def user? (n : Node σ γ υ) (kind : String) : Option υ :=
  n.users.lookup kind

def setUser (n : Node σ γ υ) (kind : String) (service : υ) : Node σ γ υ :=
  { n with users := (kind, service) :: n.users.filter (·.1 != kind) }

def removeUser (n : Node σ γ υ) (kind : String) : Node σ γ υ :=
  { n with users := n.users.filter (·.1 != kind) }

/-- Registers an object, and the sync service with it. Returns what the object replaces. -/
def addObject (s : Services σ γ υ) (n : Node σ γ υ) (object : σ) : Node σ γ υ × Option σ :=
  let (table, replaced) := n.syncOrDefault.add s.objects object
  ({ n with sync := some table }, replaced)

/-- Sends a request for `ticket`. -/
def request (n : Node σ γ υ) (peer : Address) (m : Message) (ticket : Ticket) :
    Node σ γ υ × Except Error Unit :=
  let (requests, site, result) := n.requests.send n.site peer m ticket
  ({ n with requests := requests, site := site }, result)

def cancel (n : Node σ γ υ) (ticket : Ticket) : Node σ γ υ × Bool :=
  let (requests, site, found) := n.requests.cancel n.site ticket
  ({ n with requests := requests, site := site }, found)

def answer (n : Node σ γ υ) (id : ResponseId) (m : Message) : Node σ γ υ :=
  let (requests, site, ticket) := n.requests.answer n.site id
  { n with
    requests := requests
    site := site
    answers := n.answers ++ (ticket.map (·, m)).toList }

/-- Handles an echo: sends it back, or takes it as an answer if it came back. -/
def handleEcho (n : Node σ γ υ) (sender : Address) (m : EchoMessage) :
    Node σ γ υ × Except Error Unit :=
  if m.echoed then
    match m.responseId with
    | some id => (n.answer id (.echo m), .ok ())
    | none => (n, .ok ())
  else
    match n.site.net.send sender (.echo m.received) with
    | .ok net => ({ n with site := { n.site with net := net } }, .ok ())
    | .error e => (n, .error e)

/-- Handles a message from `sender`. -/
def handle (s : Services σ γ υ) (n : Node σ γ υ) (sender : Address) (m : Message) :
    Node σ γ υ × Except Error Unit :=
  match m with
  | .keepAlive => (n, .ok ())
  | .echo body => n.handleEcho sender body
  | .reply body => (n.answer body.responseId m, .ok ())
  | .chat _ =>
    let (site, rooms, heard) := Chat.handle n.site n.chatOrDefault sender m
    ({ n with site := site, chat := some rooms, heard := n.heard ++ heard.toList }, .ok ())
  | .sync _ =>
    match n.syncOrDefault.handle s.objects m with
    | .ok table => ({ n with sync := some table }, .ok ())
    | .error e => ({ n with sync := some n.syncOrDefault }, .error e)
  | .grid _ =>
    match n.grid with
    | some service =>
      let (service, site, result) := s.grid service n.site sender m
      ({ n with grid := some service, site := site }, result)
    | none => ({ n with site := n.site.note (.noGridService sender) }, .ok ())
  | .user body =>
    match n.user? body.kind with
    | some service =>
      let (service, site, result) := s.user service n.site sender m
      ({ n.setUser body.kind service with site := site }, result)
    | none => ({ n with site := n.site.note (.noUserService body.kind sender) }, .ok ())

end Node

end Parley
