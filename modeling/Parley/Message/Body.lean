import Parley.Message.Kind
import Parley.Wire.Shape

/-!
# Message bodies

What each kind of message carries, and its fields in the order in which every format writes them.
For each body, `ofFields (toFields b) = b`.
-/

namespace Parley

open Wire

/-- Ties an answer to the request that it answers. -/
abbrev ResponseId := UInt32

/-- Names a job of a grid. -/
abbrev JobId := UInt32

/-- A message that the receiver sends back, unless it came back already. -/
structure EchoMessage where
  responseId : Option ResponseId
  echoed : Bool
  bytes : Bytes
deriving DecidableEq, Repr

namespace EchoMessage

/-- An echo that has not been sent back. -/
def new (bytes : Bytes) : EchoMessage := ⟨none, false, bytes⟩

/-- Marks the message as sent back. -/
def received (m : EchoMessage) : EchoMessage := { m with echoed := true }

def fields : Record :=
  [⟨"response_id", .option (.uint .w32)⟩, ⟨"echoed", .bool⟩, ⟨"bytes", .bytes⟩]

def toFields (m : EchoMessage) : fields.Val := (m.responseId, m.echoed, m.bytes, ())

def ofFields : fields.Val → EchoMessage
  | (responseId, echoed, bytes, _) => ⟨responseId, echoed, bytes⟩

end EchoMessage

/-- The answer to a request. -/
structure ReplyMessage where
  responseId : ResponseId
  kind : String
  payload : Bytes
deriving DecidableEq, Repr

namespace ReplyMessage

def fields : Record :=
  [⟨"response_id", .uint .w32⟩, ⟨"kind", .text⟩, ⟨"payload", .bytes⟩]

def toFields (m : ReplyMessage) : fields.Val := (m.responseId, m.kind, m.payload, ())

def ofFields : fields.Val → ReplyMessage
  | (responseId, kind, payload, _) => ⟨responseId, kind, payload⟩

end ReplyMessage

/-- A message of the application; its kind leads it to the service that handles it. -/
structure UserMessage where
  kind : String
  responseId : Option ResponseId
  payload : Bytes
deriving DecidableEq, Repr

namespace UserMessage

/-- A message that wants no answer. -/
def new (kind : String) (payload : Bytes) : UserMessage := ⟨kind, none, payload⟩

/-- The answer to the message, if its sender wants one. -/
def reply (m : UserMessage) (payload : Bytes) : Option ReplyMessage :=
  m.responseId.map fun id => ⟨id, m.kind, payload⟩

def fields : Record :=
  [⟨"kind", .text⟩, ⟨"response_id", .option (.uint .w32)⟩, ⟨"payload", .bytes⟩]

def toFields (m : UserMessage) : fields.Val := (m.kind, m.responseId, m.payload, ())

def ofFields : fields.Val → UserMessage
  | (kind, responseId, payload, _) => ⟨kind, responseId, payload⟩

end UserMessage

/-- A change of membership in a chat room, or a line of text for it. -/
structure ChatMessage where
  kind : ChatKind
  msg : String
  room : String
deriving DecidableEq, Repr

namespace ChatMessage

/-- The name of the room that everybody can use. -/
def mainRoom : String := ""

def register (room : String) : ChatMessage := ⟨.register, "", room⟩

def unregister (room : String) : ChatMessage := ⟨.unregister, "", room⟩

def message (msg room : String) : ChatMessage := ⟨.message, msg, room⟩

instance : Inhabited ChatMessage := ⟨register mainRoom⟩

def fields : Record :=
  [⟨"type_", .code ChatKind.codes⟩, ⟨"msg", .text⟩, ⟨"room", .text⟩]

def toFields (m : ChatMessage) : fields.Val := (m.kind.code, m.msg, m.room, ())

def ofFields : fields.Val → ChatMessage
  | (kind, msg, room, _) => ⟨ChatKind.ofCode kind, msg, room⟩

end ChatMessage

/-- The state of a shared object, or word of its removal. -/
structure SyncMessage where
  id : String
  kind : SyncKind
  payload : Bytes
deriving DecidableEq, Repr

namespace SyncMessage

def sync (id : String) (payload : Bytes) : SyncMessage := ⟨id, .sync, payload⟩

def remove (id : String) : SyncMessage := ⟨id, .remove, []⟩

def fields : Record :=
  [⟨"id", .text⟩, ⟨"type_", .code SyncKind.codes⟩, ⟨"payload", .bytes⟩]

def toFields (m : SyncMessage) : fields.Val := (m.id, m.kind.code, m.payload, ())

def ofFields : fields.Val → SyncMessage
  | (id, kind, payload, _) => ⟨id, SyncKind.ofCode kind, payload⟩

end SyncMessage

/-- What coordinator and workers of a grid tell each other. -/
structure GridMessage where
  kind : GridKind
  jobId : JobId
  data : Option Bytes
deriving DecidableEq, Repr

namespace GridMessage

def new (kind : GridKind) : GridMessage := ⟨kind, 0, none⟩

def ofJob (kind : GridKind) (jobId : JobId) : GridMessage := ⟨kind, jobId, none⟩

def ofData (kind : GridKind) (jobId : JobId) (data : Bytes) : GridMessage :=
  ⟨kind, jobId, some data⟩

def fields : Record :=
  [⟨"type_", .code GridKind.codes⟩, ⟨"job_id", .uint .w32⟩,
    ⟨"data", .option (.list (.uint .w8))⟩]

def toFields (m : GridMessage) : fields.Val := (m.kind.code, m.jobId, m.data, ())

def ofFields : fields.Val → GridMessage
  | (kind, jobId, data, _) => ⟨GridKind.ofCode kind, jobId, data⟩

end GridMessage

theorem EchoMessage.ofFields_toFields (m : EchoMessage) : ofFields m.toFields = m := rfl

theorem ReplyMessage.ofFields_toFields (m : ReplyMessage) : ofFields m.toFields = m := rfl

theorem UserMessage.ofFields_toFields (m : UserMessage) : ofFields m.toFields = m := rfl

theorem ChatMessage.ofFields_toFields (m : ChatMessage) : ofFields m.toFields = m := by
  cases m; simp [toFields, ofFields, ChatKind.ofCode_code]

theorem SyncMessage.ofFields_toFields (m : SyncMessage) : ofFields m.toFields = m := by
  cases m; simp [toFields, ofFields, SyncKind.ofCode_code]

theorem GridMessage.ofFields_toFields (m : GridMessage) : ofFields m.toFields = m := by
  cases m; simp [toFields, ofFields, GridKind.ofCode_code]

end Parley
