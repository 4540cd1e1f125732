import Parley.Address
import Parley.Message.Kind
import Parley.Wire.Bincode

/-!
# What can go wrong

Every operation that can fail says why with a value of `Error`. `Error.message` is the one place
that words a cause for users.
-/

namespace Parley

/-- The two ends of a network. -/
inductive Role
  | server
  | client
deriving DecidableEq, Repr

def Role.name : Role → String
  | .server => "server"
  | .client => "client"

/-- Why the content of a frame cannot be used. -/
inductive FrameFlaw
  /-- A compressed payload without its size in front. -/
  | noSize
  | negativeSize (size : Int)
  /-- A compressed payload of a size that the format does not reach. -/
  | hugeSize
  /-- A compressed payload that does not unpack to its size. -/
  | corrupt
  /-- A compressed payload where compression is not built in. -/
  | unsupported
deriving DecidableEq, Repr

def FrameFlaw.message : FrameFlaw → String
  | noSize => "compressed payload is missing the size prefix"
  | negativeSize size => s!"negative uncompressed size: {size}"
  | hugeSize => "failed decompressing payload: Given size parameter is too big"
  | corrupt =>
    "failed decompressing payload: Decompression failed. Input invalid or too long?"
  | unsupported => "got compressed payload but lz4 support is not enabled"

/-- Why a message has no place where it is used. -/
inductive Misuse
  | carriesNoId (kind : MessageKind)
  /-- A job that came without data. -/
  | jobWithoutData (job : UInt32)
  /-- A service turned it down. -/
  | refused (reason : String)
deriving DecidableEq, Repr

def Misuse.message : Misuse → String
  | carriesNoId kind => kind.name ++ " message can't carry a response id"
  | jobWithoutData job => s!"job {job} without data"
  | refused reason => reason

/-- Optional parts of the library. -/
inductive Feature
  | lz4 | messagePack | json
deriving DecidableEq, Repr

def Feature.name : Feature → String
  | lz4 => "lz4"
  | messagePack => "msgpack_encoding"
  | json => "json_encoding"

/-- Causes without a kind of their own. -/
inductive Mishap
  | unknownEncoding (name : String)
  /-- The encoding is not built in. -/
  | encodingUnavailable (feature : Feature)
  | computeBrokeOff
  | reported (reason : String)
deriving DecidableEq, Repr

def Mishap.message : Mishap → String
  | unknownEncoding name => "failed parsing encoding from string: " ++ name
  | encodingUnavailable feature =>
    "encoding not available, crate feature " ++ feature.name ++ " is not enabled"
  | computeBrokeOff => "compute panicked"
  | reported reason => reason

/-- What the host can answer to a socket or a file operation that fails. -/
inductive HostFault
  /-- The address is none. -/
  | badEndpoint (fault : Endpoint.Fault)
  | unknownHost
  | unreachable
  | refused
  | addressInUse
  | brokenPipe
  | reset
  | writeZero
  | noSuchFile
  | other (text : String)
deriving DecidableEq, Repr

/-- Number and name that the system has for a fault of its own. -/
def HostFault.code? : HostFault → Option (Nat × String × String)
  | unreachable => some (101, "NetworkUnreachable", "Network is unreachable")
  | refused => some (111, "ConnectionRefused", "Connection refused")
  | addressInUse => some (98, "AddrInUse", "Address already in use")
  | brokenPipe => some (32, "BrokenPipe", "Broken pipe")
  | reset => some (104, "ConnectionReset", "Connection reset by peer")
  | noSuchFile => some (2, "NotFound", "No such file or directory")
  | badEndpoint _ | unknownHost | writeZero | other _ => none

/-- The fault that the system has a number for. -/
def HostFault.ofCode? (code : Nat) : Option HostFault :=
  [unreachable, refused, addressInUse, brokenPipe, reset, noSuchFile].find? fun fault =>
    fault.code?.any (·.1 == code)

def HostFault.message (fault : HostFault) : String :=
  match fault.code? with
  | some (code, _, text) => text ++ s!" (os error {code})"
  | none =>
    match fault with
    | badEndpoint fault => fault.message
    | unknownHost => "failed to lookup address information: Name or service not known"
    | other text => text
    | _ => "stream closed"

/-- Why an operation failed. -/
inductive Error
  | timedOut
  | notConnected (address : Address)
  | networkShutdown
  | alreadyStarted
  | wrongRole (role : Role)
  | malformedFrame (flaw : FrameFlaw)
  | frameTooLarge (size limit : Nat)
  | unexpectedMessage (misuse : Misuse)
  | noSuchObject (id : String)
  | responseIdsExhausted
  | shuttingDown
  | other (mishap : Mishap)
  | host (fault : HostFault)
  | bincode (fault : Wire.Bincode.Fault)
  | messagePack
  | json
  | unknownKind (code : UInt8)
deriving DecidableEq, Repr

/-- The text of an error, as it is shown to users. -/
def Error.message : Error → String
  | timedOut => "timed out"
  | notConnected address => "socket not connected: " ++ toString address
  | networkShutdown => "network was shut down"
  | alreadyStarted => "network already started"
  | wrongRole role => "operation not available for " ++ role.name ++ " role"
  | malformedFrame flaw => "malformed frame: " ++ flaw.message
  | frameTooLarge size limit => s!"frame of {size} bytes exceeds the limit of {limit} bytes"
  | unexpectedMessage misuse => "unexpected message: " ++ misuse.message
  | noSuchObject id => "no sync object with id: " ++ id
  | responseIdsExhausted => "failed requesting new response id: id pool exhausted"
  | shuttingDown => "shutting down"
  | other mishap => "other: " ++ mishap.message
  | host fault => "io error: " ++ fault.message
  | bincode fault => "bincode error: " ++ fault.message
  | messagePack => "rmp_serde decode error: the bytes are no such value"
  | json => "serde_json error: the text is no such value"
  | unknownKind code =>
    s!"unknown message code: No discriminant in enum `MessageType` matches the value `{code}`"

end Parley
