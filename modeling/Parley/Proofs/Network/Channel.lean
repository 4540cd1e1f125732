import Mathlib.Logic.Relation
import Parley.Proofs.Network.Rounds

/-!
# Two loops with a connection between them

A connection from one loop to another, and the stream that it is made of. At both ends anything may
happen in any order: calls by anybody, to any connection; commands carried out one by one; every part
of a round, with any times, any outcomes of reads and writes, and any other connections.

- `Channel.Step`: one thing that happens. The stream is reliable: what has come out of it is a part
  of what went in, from the start. It delivers in pieces of any size and may be slow at any time.
- `Channel.History`: what was queued and what has arrived since the connection was made. Neither end
  looks at it.
- `Network.Call.run_ok`: a call that is accepted queues one command.
-/

namespace Parley

/-! ## Calls -/

/-- What a user of a network may ask for. -/
inductive Network.Call
  | send (a : Address) (m : Message)
  | broadcast (m : Message)
  | close (a : Address)
  | shutdown
deriving DecidableEq, Repr

namespace Network.Call

/-- Makes a call. -/
def run (net : Network) : Call → Except Error Network
  | send a m => net.send a m
  | broadcast m => net.broadcast m
  | close a => net.close a
  | shutdown => net.command .shutdown

/-- The command that a call queues. -/
def command (config : NetworkConfig) : Call → Except Error Command
  | send a m => Command.send a <$> encode config m
  | broadcast m => Command.broadcast <$> encode config m
  | close a => .ok (.close a)
  | shutdown => .ok .shutdown

theorem ok_of_map {α β : Type} {f : α → β} {r : Except Error α} {y : β} (h : f <$> r = .ok y) :
    ∃ x, r = .ok x ∧ f x = y := by
  cases r with
  | error e => cases h
  | ok x => exact ⟨x, rfl, Except.ok.inj h⟩

/-- The messages that a call has for an address. -/
def messagesTo (b : Address) : Call → List Message
  | send a m => if a = b then [m] else []
  | broadcast m => [m]
  | close _ | shutdown => []

/-- A call that is accepted queues its command and does nothing else. -/
theorem run_ok {net net' : Network} {c : Call} (h : c.run net = .ok net') :
    ∃ cmd, c.command net.config = .ok cmd ∧ net' = { net with queue := net.queue ++ [cmd] } := by
  cases c with
  | send a m =>
    obtain ⟨bytes, hencode, rfl⟩ := send_ok h
    exact ⟨.send a bytes, by rw [command, hencode]; rfl, rfl⟩
  | broadcast m =>
    obtain ⟨bytes, hencode, rfl⟩ := broadcast_ok h
    exact ⟨.broadcast bytes, by rw [command, hencode]; rfl, rfl⟩
  | close a =>
    simp only [run, Network.close] at h
    split at h
    · cases h
    · exact ⟨.close a, rfl, command_ok h⟩
  | shutdown => exact ⟨.shutdown, rfl, command_ok h⟩

end Network.Call

/-- The bytes of a message that passes. -/
def Network.bytesOf (config : NetworkConfig) (m : Message) : Bytes :=
  match encode config m with
  | .ok bytes => bytes
  | .error _ => []

theorem Network.bytesOf_of_encode {config : NetworkConfig} {m : Message} {bytes : Bytes}
    (h : encode config m = .ok bytes) : bytesOf config m = bytes := by
  rw [bytesOf, h]

/-- A sign of life passes whatever the settings are. -/
theorem Network.encode_keepAlive (config : NetworkConfig) :
    encode config .keepAlive = .ok Loop.heartbeatBytes := by
  have hpack : Message.keepAlive.pack config.features config.encoding = .ok [] := rfl
  have hframe : Message.keepAlive.toFrame config.features config.encoding config.compress =
      .ok ⟨MessageKind.keepAlive.code, 0, []⟩ := by
    rw [Message.toFrame, hpack]
    simp [bind, Except.bind, Message.compressionThreshold, Message.kind_keepAlive]
  exact encode_of_toFrame hframe (Nat.not_lt_zero _)

/-! ## Two loops and a stream -/

/-- A message queued for a connection. -/
inductive Channel.Entry
  /-- It belongs to a call. -/
  | call (m : Message)
  /-- It is a sign of life of the loop. -/
  | heartbeat
deriving DecidableEq, Repr

namespace Channel.Entry

/-- The message itself. -/
def message : Entry → Message
  | call m => m
  | heartbeat => .keepAlive

/-- The message, if it belongs to a call. -/
def called? : Entry → Option Message
  | call m => some m
  | heartbeat => none

end Channel.Entry

/-- What went on between two loops since they were connected. -/
structure Channel.History where
  /-- The calls at the sender whose commands wait, the oldest first. -/
  calls : List Network.Call
  /-- The messages for the connection in all calls that were accepted. -/
  accepted : List Message
  /-- What the sender has queued for the connection. -/
  queued : List Channel.Entry
  /-- The bytes that have come out of the stream. -/
  arrived : Bytes

/-- Two loops with a connection from one to the other. -/
structure Channel extends Channel.History where
  sender : Loop
  receiver : Loop

/-- The bytes that a stream delivers to a loop in a round. -/
def Loop.takes (l : Loop) (s : Streams) (b : Address) : Bytes :=
  if l.stands b then Connection.delivered Connection.maxReads (s.reads b) else []

namespace Channel

/-- One thing that happens. The sender knows the receiver as `dst`, which knows it as `src`. -/
inductive Step (dst src : Address) : Channel → Channel → Prop
  /-- Somebody makes a call at the sender, and it is accepted. -/
  | call {w : Channel} {c : Network.Call} {net : Network} (h : c.run w.sender.net = .ok net) :
      Step dst src w
        { w with
          sender := { w.sender with net := net }
          calls := w.calls ++ [c]
          accepted := w.accepted ++ c.messagesTo dst }
  /-- The sender carries out the oldest command. -/
  | command {w : Channel} {c : Network.Call} {rest : List Network.Call} (s : Streams)
      (h : w.calls = c :: rest) :
      Step dst src w
        { w with
          sender := w.sender.takeCommand s
          calls := rest
          queued := w.queued ++
            if w.sender.stands dst then (c.messagesTo dst).map .call else [] }
  /-- The sender sends signs of life, if it is time. -/
  | heartbeats {w : Channel} (s : Streams) :
      Step dst src w
        { w with
          sender := w.sender.sendHeartbeats s
          queued := w.queued ++
            if w.sender.isDue s && w.sender.stands dst then [.heartbeat] else [] }
  /-- Another part of a round of the sender. -/
  | part {w : Channel} {p : Loop.Phase} {s : Streams} (hp : p ≠ .heartbeats)
      (hs : dst ∉ s.accepted) :
      Step dst src w { w with sender := p.run s w.sender }
  /-- Somebody makes a call at the receiver. -/
  | peerCall {w : Channel} {c : Network.Call} {net : Network} (h : c.run w.receiver.net = .ok net) :
      Step dst src w { w with receiver := { w.receiver with net := net } }
  /-- The receiver carries out its oldest command. -/
  | peerCommand {w : Channel} (s : Streams) :
      Step dst src w { w with receiver := w.receiver.takeCommand s }
  /-- A part of a round of the receiver, without its reads. -/
  | peerPart {w : Channel} {p : Loop.Phase} {s : Streams} (hp : p ≠ .read) (hs : src ∉ s.accepted) :
      Step dst src w { w with receiver := p.run s w.receiver }
  /-- The receiver reads. What comes out of the stream is what went in, as far as it has come. -/
  | read {w : Channel} {s : Streams} (hworks : ∀ fault, .failed fault ∉ s.reads src)
      (hstream : w.arrived ++ w.receiver.takes s src <+: w.sender.written dst) :
      Step dst src w
        { w with
          receiver := w.receiver.readAll s
          arrived := w.arrived ++ w.receiver.takes s src }

/-- Any number of steps. -/
abbrev Run (dst src : Address) : Channel → Channel → Prop :=
  Relation.ReflTransGen (Step dst src)

/-- The connection was just made. Calls made before may wait at the sender. -/
structure Starts (dst src : Address) (w : Channel) : Prop where
  speaks : w.sender.net.config.Speaks w.receiver.net.config
  distinct : w.receiver.addresses.Nodup
  commands : w.calls.map (Network.Call.command w.sender.net.config) = w.sender.net.queue.map .ok
  sender : ∃ c, w.sender.get? dst = some c ∧ c.unsent = [] ∧ c.info.sent = 0
  receiver : ∃ c, w.receiver.get? src = some c ∧
    c.decoder = .new w.receiver.net.config.maxFrame
  written : w.sender.written dst = []
  dispatched : w.receiver.dispatched src = []
  accepted : w.accepted = w.calls.flatMap (Network.Call.messagesTo dst)
  queued : w.queued = []
  arrived : w.arrived = []

/-- All bytes of what was queued were written, and all that was written was read. -/
structure Settled (dst : Address) (w : Channel) : Prop where
  written : w.sender.written dst =
    (w.queued.map Entry.message).flatMap (Network.bytesOf w.sender.net.config)
  read : w.arrived = w.sender.written dst

end Channel

end Parley
