import Parley.Network.Basic

/-!
# One connection

What the loop of a network keeps for each connection: bytes that came and do not make up a frame
yet, bytes that have to go out, and what the table should say about it. Streams never block: each
read and each write has an outcome, and a round takes as many as it can get.

- `Connection.readAvailable` takes in what a stream yields, `Connection.decode` turns it into
  messages.
- `Connection.flush` writes until the stream takes no more.
-/

namespace Parley

/-- The outcome of one read. -/
inductive ReadOutcome
  | data (bytes : Bytes)
  | endOfStream
  | wouldBlock
  | interrupted
  | failed (fault : HostFault)
deriving DecidableEq, Repr

/-- The outcome of one write. -/
inductive WriteOutcome
  | accepted (count : Nat)
  | wouldBlock
  | interrupted
  | failed (fault : HostFault)
deriving DecidableEq, Repr

/-- A connection. -/
structure Connection where
  info : ConnectionInfo
  decoder : FrameDecoder
  /-- What has to go out. -/
  unsent : Bytes
  /-- Whether the table does not know the latest of `info`. -/
  dirty : Bool
deriving DecidableEq, Repr

namespace Connection

def new (address : Address) (now maxFrame : Nat) : Connection :=
  ⟨.new address now, .new maxFrame, [], false⟩

/-- Most reads of one stream in a round, so that no peer keeps the others waiting. -/
def maxReads : Nat := 64

/-- How a round of reads ends. -/
inductive ReadEnd
  /-- There may be more later. -/
  | open
  /-- The peer has closed the stream. -/
  | closed
  | failed (fault : HostFault)
deriving DecidableEq, Repr

/-- Takes in bytes until the reads are used up, or one yields nothing. Where an outcome is missing,
there is nothing to read. -/
def readFor : Nat → List ReadOutcome → Connection → Connection × ReadEnd
  | 0, _, c => (c, .open)
  | _ + 1, [], c => (c, .open)
  | n + 1, outcome :: rest, c =>
    match outcome with
    -- a read that works and yields nothing is the end of the stream, too
    | .data [] | .endOfStream => (c, .closed)
    | .data bytes => readFor n rest { c with decoder := c.decoder.extend bytes }
    | .wouldBlock => (c, .open)
    | .interrupted => readFor n rest c
    | .failed fault => (c, .failed fault)

def readAvailable (outcomes : List ReadOutcome) (c : Connection) : Connection × ReadEnd :=
  readFor maxReads outcomes c

def countReceived (c : Connection) (now : Nat) : Connection :=
  { c with
    info := { c.info with
      lastReceived := now, received := ConnectionInfo.count c.info.received }
    dirty := true }

/-- Decodes frames for a number of rounds, or until none is left or one is bad. -/
def decodeFor (config : NetworkConfig) (now : Nat) :
    Nat → Connection → Connection × List Message × Option Error
  | 0, c => (c, [], none)
  | rounds + 1, c =>
    match c.decoder.next with
    | .error e => (c, [], some e)
    | .ok none => (c, [], none)
    | .ok (some (frame, decoder)) =>
      -- the frame is out of the decoder, whether it can be read or not
      let c := { c with decoder := decoder }
      match Message.ofFrame config.features config.encoding config.maxFrame frame with
      | .error e => (c, [], some e)
      | .ok m =>
        let (c, ms, e) := decodeFor config now rounds (c.countReceived now)
        (c, m :: ms, e)

/-- Decodes all messages that have arrived, up to the first bad frame. -/
def decode (config : NetworkConfig) (now : Nat) (c : Connection) :
    Connection × List Message × Option Error :=
  decodeFor config now (c.decoder.buffered + 1) c

def enqueue (c : Connection) (bytes : Bytes) : Connection :=
  { c with
    unsent := c.unsent ++ bytes
    info := { c.info with sent := ConnectionInfo.count c.info.sent }
    dirty := true }

/-- Writes until all is written or the stream takes no more. Returns what was written. -/
def flush : List WriteOutcome → Connection → Connection × Bytes × Option HostFault
  | [], c => (c, [], none)
  | outcome :: rest, c =>
    if c.unsent.isEmpty then (c, [], none)
    else match outcome with
      -- a stream that takes nothing, rather than making the writer wait, takes no more
      | .accepted 0 => (c, [], some .writeZero)
      | .accepted n =>
        let (c', written, fault) := flush rest { c with unsent := c.unsent.drop n }
        (c', c.unsent.take n ++ written, fault)
      | .wouldBlock => (c, [], none)
      | .interrupted => flush rest c
      | .failed fault => (c, [], some fault)

/-- Writing loses nothing and changes no order: what was written and what still has to go out are
together what had to go out before. -/
theorem written_append_unsent (outcomes : List WriteOutcome) (c : Connection) :
    (c.flush outcomes).2.1 ++ (c.flush outcomes).1.unsent = c.unsent := by
  induction outcomes generalizing c with
  | nil => rfl
  | cons outcome rest ih =>
    unfold flush
    split
    · rfl
    · cases outcome with
      | accepted n =>
        cases n with
        | zero => rfl
        | succ n =>
          have h := ih { c with unsent := c.unsent.drop (n + 1) }
          simp only [List.append_assoc, h, List.take_append_drop]
      | wouldBlock => rfl
      | interrupted => exact ih c
      | failed fault => rfl

end Connection

end Parley
