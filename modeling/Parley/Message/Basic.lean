import Parley.Message.Body
import Parley.Wire.Compressed
import Parley.Wire.Encoding
import Parley.Wire.Frame

/-!
# Messages

A message of any kind, the response id that some carry, and its way into a frame and back.

- `Message.toFrame` writes a message, compressed if it is wanted and the payload is long enough.
- `Message.ofFrame` reads one; the kind is looked at first, then the compression, then the payload.
-/

namespace Parley

/-- A message of any kind. -/
inductive Message
  /-- Shows that the sender is still there. -/
  | keepAlive
  | echo (body : EchoMessage)
  | reply (body : ReplyMessage)
  | chat (body : ChatMessage)
  | sync (body : SyncMessage)
  | grid (body : GridMessage)
  | user (body : UserMessage)
deriving DecidableEq, Repr

namespace Message

def kind : Message → MessageKind
  | keepAlive => .keepAlive
  | echo _ => .echo
  | reply _ => .reply
  | chat _ => .chat
  | sync _ => .sync
  | grid _ => .grid
  | user _ => .user

/-- Whether the network uses the message itself, so that no service sees it. -/
def isSystem : Message → Bool
  | keepAlive | echo _ | reply _ => true
  | _ => false

def responseId? : Message → Option ResponseId
  | echo body => body.responseId
  | reply body => some body.responseId
  | user body => body.responseId
  | _ => none

/-- Marks a message as a request. Only echoes and user messages can be answered. -/
def withResponseId (id : ResponseId) : Message → Except Error Message
  | echo body => .ok (echo { body with responseId := some id })
  | user body => .ok (user { body with responseId := some id })
  | m => .error (.unexpectedMessage (.carriesNoId m.kind))

/-- The packed body. A sign of life has none, so it needs no encoding. -/
def pack (f : Features) (e : Encoding) : Message → Except Error Bytes
  | keepAlive => .ok []
  | echo body => e.packRecord f EchoMessage.fields body.toFields
  | reply body => e.packRecord f ReplyMessage.fields body.toFields
  | chat body => e.packRecord f ChatMessage.fields body.toFields
  | sync body => e.packRecord f SyncMessage.fields body.toFields
  | grid body => e.packRecord f GridMessage.fields body.toFields
  | user body => e.packRecord f UserMessage.fields body.toFields

def unpack (f : Features) (e : Encoding) (bs : Bytes) : MessageKind → Except Error Message
  | .keepAlive => .ok keepAlive
  | .echo => (echo ∘ EchoMessage.ofFields) <$> e.unpackRecord f EchoMessage.fields bs
  | .reply => (reply ∘ ReplyMessage.ofFields) <$> e.unpackRecord f ReplyMessage.fields bs
  | .chat => (chat ∘ ChatMessage.ofFields) <$> e.unpackRecord f ChatMessage.fields bs
  | .sync => (sync ∘ SyncMessage.ofFields) <$> e.unpackRecord f SyncMessage.fields bs
  | .grid => (grid ∘ GridMessage.ofFields) <$> e.unpackRecord f GridMessage.fields bs
  | .user => (user ∘ UserMessage.ofFields) <$> e.unpackRecord f UserMessage.fields bs

/-- Payloads below this length are never compressed. -/
def compressionThreshold : Nat := 512

def toFrame (f : Features) (e : Encoding) (compress : Bool) (m : Message) : Except Error Frame := do
  let payload ← m.pack f e
  if f.lz4 && compress && compressionThreshold ≤ payload.length then
    let compressed ← Compressed.pack payload
    .ok ⟨m.kind.code, Frame.compressedFlag, compressed⟩
  else .ok ⟨m.kind.code, 0, payload⟩

def toBytes (f : Features) (e : Encoding) (compress : Bool) (m : Message) : Except Error Bytes :=
  Frame.toBytes <$> m.toFrame f e compress

/-- The payload of a frame as it was before compression, at most `limit` bytes if it was
compressed. -/
def plainPayload (f : Features) (limit : Nat) (frame : Frame) : Except Error Bytes :=
  if frame.isCompressed then
    if f.lz4 then Compressed.decompress limit frame.payload
    else .error (.malformedFrame .unsupported)
  else .ok frame.payload

def ofFrame (f : Features) (e : Encoding) (limit : Nat) (frame : Frame) : Except Error Message :=
  match MessageKind.ofCode? frame.kind with
  | none => .error (.unknownKind frame.kind)
  -- a compressed payload is unpacked even for a kind that has no use for it
  | some kind => do
    let payload ← plainPayload f limit frame
    unpack f e payload kind

theorem kind_keepAlive : keepAlive.kind = .keepAlive := rfl

end Message

end Parley
