/-!
# Kinds of messages

The kind of a message is one byte in front of its frame. Chat, sync and grid messages have a second
code inside that says what they ask for. Every code is read back to the kind it belongs to
(`MessageKind.ofCode?_code` and its fellows).
-/

namespace Parley

/-- Kinds of messages. Those up to `reply` are used by the network itself. -/
inductive MessageKind
  | keepAlive | echo | reply | chat | sync | grid | user
deriving DecidableEq, Repr

namespace MessageKind

def code : MessageKind → UInt8
  | keepAlive => 0 | echo => 1 | reply => 2
  | chat => 10 | sync => 11 | grid => 12
  | user => 100

/-- The kind of a byte, if it has one. -/
def ofCode? (c : UInt8) : Option MessageKind :=
  if c = 0 then some keepAlive
  else if c = 1 then some echo
  else if c = 2 then some reply
  else if c = 10 then some chat
  else if c = 11 then some sync
  else if c = 12 then some grid
  else if c = 100 then some user
  else none

def name : MessageKind → String
  | keepAlive => "KeepAlive" | echo => "Echo" | reply => "Reply"
  | chat => "Chat" | sync => "Sync" | grid => "Grid"
  | user => "User"

/-- All codes, in the order of declaration. -/
def codes : List UInt8 :=
  [0, 1, 2, 10, 11, 12, 100]

theorem ofCode?_code (k : MessageKind) : ofCode? k.code = some k := by
  cases k <;> rfl

theorem code_of_ofCode? {c : UInt8} {k : MessageKind} (h : ofCode? c = some k) : k.code = c := by
  grind [ofCode?, code]

end MessageKind

/-- What a chat message asks for. -/
inductive ChatKind
  | register
  | unregister
  | message
deriving DecidableEq, Repr

namespace ChatKind

def name : ChatKind → String
  | register => "Register"
  | unregister => "Unregister"
  | message => "Message"

/-- All codes, in the order of declaration. -/
def codes : List UInt8 := [0, 1, 2]

def code : ChatKind → { c : UInt8 // c ∈ codes }
  | register => ⟨0, by decide⟩
  | unregister => ⟨1, by decide⟩
  | message => ⟨2, by decide⟩

def ofCode (c : { c : UInt8 // c ∈ codes }) : ChatKind :=
  if c.val = 0 then register else if c.val = 1 then unregister else message

theorem ofCode_code (k : ChatKind) : ofCode k.code = k := by
  cases k <;> rfl

end ChatKind

/-- What a sync message asks for. -/
inductive SyncKind
  | sync
  /-- The object was removed by the sender. -/
  | remove
deriving DecidableEq, Repr

namespace SyncKind

def name : SyncKind → String
  | sync => "Sync"
  | remove => "Remove"

/-- All codes, in the order of declaration. -/
def codes : List UInt8 := [0, 1]

def code : SyncKind → { c : UInt8 // c ∈ codes }
  | sync => ⟨0, by decide⟩
  | remove => ⟨1, by decide⟩

def ofCode (c : { c : UInt8 // c ∈ codes }) : SyncKind :=
  if c.val = 0 then sync else remove

theorem ofCode_code (k : SyncKind) : ofCode k.code = k := by
  cases k <;> rfl

end SyncKind

/-- What a grid message asks for or reports. -/
inductive GridKind
  /-- The job was computed and its result counts. -/
  | compSuccessful
  /-- The job was computed and its result does not count. -/
  | compIncorrect
  /-- Computing the job failed. -/
  | compError
  | register
  | unregister
  | newData
  /-- What all jobs have in common. -/
  | initData
  | compData
deriving DecidableEq, Repr

namespace GridKind

/-- All codes, in the order of declaration. -/
def codes : List UInt8 := [1, 2, 3, 4, 5, 6, 100, 101]

def code : GridKind → { c : UInt8 // c ∈ codes }
  | compSuccessful => ⟨1, by decide⟩
  | compIncorrect => ⟨2, by decide⟩
  | compError => ⟨3, by decide⟩
  | register => ⟨4, by decide⟩
  | unregister => ⟨5, by decide⟩
  | newData => ⟨6, by decide⟩
  | initData => ⟨100, by decide⟩
  | compData => ⟨101, by decide⟩

def ofCode (c : { c : UInt8 // c ∈ codes }) : GridKind :=
  if c.val = 1 then compSuccessful
  else if c.val = 2 then compIncorrect
  else if c.val = 3 then compError
  else if c.val = 4 then register
  else if c.val = 5 then unregister
  else if c.val = 6 then newData
  else if c.val = 100 then initData
  else compData

/-- The grid message of a byte, if it is a code. -/
def ofCode? (c : UInt8) : Option GridKind :=
  if h : c ∈ codes then some (ofCode ⟨c, h⟩) else none

def name : GridKind → String
  | compSuccessful => "CompSuccessful" | compIncorrect => "CompIncorrect"
  | compError => "CompError" | register => "Register" | unregister => "Unregister"
  | newData => "NewData" | initData => "InitData" | compData => "CompData"

theorem ofCode_code (k : GridKind) : ofCode k.code = k := by
  cases k <;> rfl

end GridKind

end Parley
