import Parley.Message.Basic
import Parley.Notice

/-!
# A network as its users see it

A network has one loop that owns the sockets. Everybody else sees a table of the connections and
hands commands to the loop: `Network.send`, `Network.broadcast` and `Network.close` check what can be
known at once, pack the message and queue a command. An operation that fails changes nothing.

- `Network.encode` refuses a frame whose payload, as it goes out, is above the limit.
-/

namespace Parley

/-- Settings of a network. Times are in milliseconds. -/
structure NetworkConfig where
  features : Features
  /-- How payloads are packed; both ends have to agree on it. -/
  encoding : Encoding
  compress : Bool
  /-- How often every connection gets a sign of life. -/
  heartbeat : Option Nat
  idleTimeout : Option Nat
  /-- Pause of the loop between two rounds. -/
  pollWait : Nat
  /-- Largest number of bytes for one read. -/
  readBuffer : Nat
  /-- Largest payload of a frame. -/
  maxFrame : Nat
deriving DecidableEq, Repr

namespace NetworkConfig

/-- The settings that are used where none are chosen. -/
def default : NetworkConfig where
  features := .full
  encoding := .default
  compress := false
  heartbeat := some 1000
  idleTimeout := some 10000
  pollWait := 1
  readBuffer := 8192
  maxFrame := 16 * 1024 * 1024

instance : Inhabited NetworkConfig := ⟨default⟩

end NetworkConfig

/-- What the table of connections says about one of them. The counters have eight bytes. -/
structure ConnectionInfo where
  address : Address
  /-- When its last message came. -/
  lastReceived : Nat
  /-- Number of messages that came. -/
  received : Nat
  /-- Number of messages that were queued for it. -/
  sent : Nat
deriving DecidableEq, Repr

/-- A connection at the time `now`. -/
def ConnectionInfo.new (address : Address) (now : Nat) : ConnectionInfo :=
  ⟨address, now, 0, 0⟩

/-- A counter of messages after one more. It begins again when its bytes are used up. -/
def ConnectionInfo.count (n : Nat) : Nat :=
  (n + 1) % UInt64.size

theorem ConnectionInfo.count_mod (n : Nat) : count (n % UInt64.size) = (n + 1) % UInt64.size :=
  Nat.mod_add_mod n UInt64.size 1

/-- What the loop is asked to do. -/
inductive Command
  | send (address : Address) (bytes : Bytes)
  | broadcast (bytes : Bytes)
  | close (address : Address)
  | shutdown
deriving DecidableEq, Repr

/-- The table of connections, with at most one entry for an address. -/
abbrev ConnectionTable := List ConnectionInfo

namespace ConnectionTable

/-- The entry of an address. -/
def get? (t : ConnectionTable) (a : Address) : Option ConnectionInfo :=
  t.find? (·.address == a)

def contains (t : ConnectionTable) (a : Address) : Bool :=
  t.any (·.address == a)

def erase (t : ConnectionTable) (a : Address) : ConnectionTable :=
  t.filter (·.address != a)

def put (t : ConnectionTable) (info : ConnectionInfo) : ConnectionTable :=
  if contains t info.address then t.map fun i => if i.address == info.address then info else i
  else t ++ [info]

def addresses (t : ConnectionTable) : List Address :=
  t.map (·.address)

theorem contains_iff (t : ConnectionTable) (a : Address) :
    contains t a = true ↔ ∃ i ∈ t, i.address = a := by
  simp [contains]

theorem contains_erase_iff (t : ConnectionTable) (a b : Address) :
    contains (erase t a) b = true ↔ contains t b = true ∧ b ≠ a := by
  simp only [contains_iff, erase, List.mem_filter, bne_iff_ne]
  constructor
  · rintro ⟨i, ⟨hi, ha⟩, rfl⟩
    exact ⟨⟨i, hi, rfl⟩, ha⟩
  · rintro ⟨⟨i, hi, rfl⟩, ha⟩
    exact ⟨i, ⟨hi, ha⟩, rfl⟩

theorem contains_put_iff (t : ConnectionTable) (info : ConnectionInfo) (a : Address) :
    contains (put t info) a = true ↔ contains t a = true ∨ info.address = a := by
  unfold put
  split
  · rename_i hc
    simp only [contains_iff, List.mem_map] at hc ⊢
    constructor
    · rintro ⟨i, ⟨j, hj, rfl⟩, rfl⟩
      by_cases h : j.address = info.address
      · exact .inr (by simp [h])
      · exact .inl ⟨j, hj, by simp [h]⟩
    · rintro (⟨i, hi, rfl⟩ | rfl)
      · refine ⟨_, ⟨i, hi, rfl⟩, ?_⟩
        by_cases h : i.address = info.address <;> simp [h]
      · obtain ⟨i, hi, h⟩ := hc
        exact ⟨info, ⟨i, hi, by simp [h]⟩, rfl⟩
  · simp [contains]

end ConnectionTable

/-- A network as its users see it. -/
structure Network where
  role : Role
  config : NetworkConfig
  localAddress : Address
  /-- The server, for a client. -/
  remoteAddress : Option Address
  /-- Whether the network has not been shut down. -/
  running : Bool
  /-- Whether the loop still takes commands. -/
  listening : Bool
  table : ConnectionTable
  /-- Commands that the loop has not taken yet, the oldest first. -/
  queue : List Command
deriving DecidableEq, Repr

namespace Network

/-- A network that has just been set up. A client is connected to its server from the start. -/
def new (role : Role) (config : NetworkConfig) (localAddress : Address)
    (remoteAddress : Option Address) : Network where
  role := role
  config := config
  localAddress := localAddress
  remoteAddress := remoteAddress
  running := true
  listening := true
  table := remoteAddress.toList.map (ConnectionInfo.new · 0)
  queue := []

def isConnected (net : Network) (a : Address) : Bool :=
  net.table.contains a

/-- Largest payload that may be sent: the length has to fit its four bytes, too. -/
def payloadLimit (config : NetworkConfig) : Nat :=
  min config.maxFrame 4294967295

/-- The bytes of a message, if its frame is within the limit. -/
def encode (config : NetworkConfig) (m : Message) : Except Error Bytes :=
  match m.toFrame config.features config.encoding config.compress with
  | .error e => .error e
  | .ok frame =>
    if payloadLimit config < frame.payload.length then
      .error (.frameTooLarge frame.payload.length (payloadLimit config))
    else .ok frame.toBytes

def command (net : Network) (c : Command) : Except Error Network :=
  if net.listening then .ok { net with queue := net.queue ++ [c] } else .error .networkShutdown

def send (net : Network) (a : Address) (m : Message) : Except Error Network :=
  if !net.running then .error .networkShutdown
  else if !net.isConnected a then .error (.notConnected a)
  else match encode net.config m with
    | .error e => .error e
    | .ok bytes => net.command (.send a bytes)

def sendToServer (net : Network) (m : Message) : Except Error Network :=
  match net.remoteAddress with
  | some a => net.send a m
  | none => .error (.wrongRole net.role)

/-- Queues a message for every connection there will be when the loop takes it. -/
def broadcast (net : Network) (m : Message) : Except Error Network :=
  if !net.running then .error .networkShutdown
  else match encode net.config m with
    | .error e => .error e
    | .ok bytes => net.command (.broadcast bytes)

/-- Has a connection closed once everything queued for it has gone out. -/
def close (net : Network) (a : Address) : Except Error Network :=
  if !net.isConnected a then .error (.notConnected a) else net.command (.close a)

def connect (net : Network) (a : Address) : Network :=
  { net with table := net.table.put (.new a 0) }

def disconnect (net : Network) (a : Address) : Network :=
  { net with table := net.table.erase a }

def stop (net : Network) : Network :=
  { net with running := false }

/-- The loop ends: nobody takes commands any more. -/
def hangUp (net : Network) : Network :=
  { net with listening := false }

theorem command_ok {net net' : Network} {c : Command} (h : net.command c = .ok net') :
    net' = { net with queue := net.queue ++ [c] } := by
  unfold command at h
  split at h <;> cases h
  rfl

/-- A message that was accepted stands last in the queue, and nothing else has changed. -/
theorem send_ok {net net' : Network} {a : Address} {m : Message} (h : net.send a m = .ok net') :
    ∃ bytes, encode net.config m = .ok bytes ∧
      net' = { net with queue := net.queue ++ [.send a bytes] } := by
  unfold send at h
  split at h
  · cases h
  split at h
  · cases h
  cases he : encode net.config m with
  | error e => simp [he] at h
  | ok bytes =>
    rw [he] at h
    exact ⟨bytes, rfl, command_ok h⟩

/-- Only who is connected is sent something. -/
theorem isConnected_of_send {net net' : Network} {a : Address} {m : Message}
    (h : net.send a m = .ok net') : net.isConnected a = true := by
  cases hconnected : net.isConnected a with
  | true => rfl
  | false =>
    unfold send at h
    split at h
    · cases h
    · rw [hconnected] at h
      cases h

theorem broadcast_ok {net net' : Network} {m : Message} (h : net.broadcast m = .ok net') :
    ∃ bytes, encode net.config m = .ok bytes ∧
      net' = { net with queue := net.queue ++ [.broadcast bytes] } := by
  unfold broadcast at h
  split at h
  · cases h
  cases he : encode net.config m with
  | error e => simp [he] at h
  | ok bytes =>
    rw [he] at h
    exact ⟨bytes, rfl, command_ok h⟩

end Network

/-- Where services run: the network they use, and the notices written so far. -/
structure Site where
  net : Network
  journal : List Notice
deriving DecidableEq, Repr

namespace Site

def new (net : Network) : Site := ⟨net, []⟩

/-- Writes down a notice. -/
def note (s : Site) (n : Notice) : Site :=
  { s with journal := s.journal ++ [n] }

/-- Writes down the cause of a failure, or takes over the network of a success. -/
def attempt (s : Site) (r : Except Error Network) (n : Error → Notice) : Site :=
  match r with
  | .ok net => { s with net := net }
  | .error e => s.note (n e)

end Site

end Parley
