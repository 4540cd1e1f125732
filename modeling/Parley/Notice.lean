import Parley.Error

/-!
# Notices

What a running node writes down for its operator: warnings, where it goes on as if nothing had
happened, and errors, where something that was asked for was not done.
-/

namespace Parley

/-- How serious a notice is. -/
inductive Level
  | warn | error
deriving DecidableEq, Repr

def Level.name : Level → String
  | .warn => "WARN"
  | .error => "ERROR"

/-- Something worth writing down. -/
inductive Notice
  /-- A member of a chat room did not get a line. -/
  | chatNotForwarded (member : Address) (cause : Error)
  /-- An object's state was not sent. -/
  | objectNotSynced (id : String) (cause : Error)
  /-- A job failed too often. -/
  | jobGivenUp (job : UInt32) (attempts : UInt32)
  /-- A worker could not ask for a job. -/
  | noNextJob (cause : Error)
  /-- Computing a job failed. -/
  | jobFailed (job : UInt32) (cause : Error)
  /-- A worker could not report on a job. -/
  | jobNotReported (job : UInt32) (cause : Error)
  | noGridService (sender : Address)
  /-- Nobody handles user messages of this kind here. -/
  | noUserService (kind : String) (sender : Address)
  /-- A response id came back that was not taken. -/
  | responseIdNotTaken (id : Nat)
  | poolShutDown (sender : Address)
  /-- The handling of a message failed. -/
  | handlingFailed (kind : MessageKind) (sender : Address) (cause : Error)
  | handlingBroke (kind : MessageKind) (sender : Address) (reason : String)
  | resultUnreadable (job : UInt32) (cause : Error)
  | rangeNotSearched (job : UInt32)
  | paramsUnreadable (cause : Error)
  | lostServer (server : Address)
deriving DecidableEq, Repr

namespace Notice

def level : Notice → Level
  | handlingFailed .. | handlingBroke .. | paramsUnreadable .. => .error
  | _ => .warn

def message : Notice → String
  | chatNotForwarded member cause =>
    "failed forwarding chat message to " ++ toString member ++ ": " ++ cause.message
  | objectNotSynced id cause => "failed syncing object " ++ id ++ ": " ++ cause.message
  | jobGivenUp job attempts => s!"job {job} failed {attempts} times, giving up on it"
  | noNextJob cause => "failed getting next job: " ++ cause.message
  | jobFailed job cause => s!"job {job} failed: " ++ cause.message
  | jobNotReported job cause => s!"failed reporting job {job}: " ++ cause.message
  | noGridService sender =>
    "no grid service registered, dropping message from " ++ toString sender
  | noUserService kind sender =>
    "no service registered for user messages of kind " ++ kind ++ ", dropping message from " ++
      toString sender
  | responseIdNotTaken id => s!"failed returning response id {id} to the pool"
  | poolShutDown sender => "worker pool is shut down, dropping event from " ++ toString sender
  | handlingFailed kind sender cause =>
    "failed handling " ++ kind.name ++ " message from " ++ toString sender ++ ": " ++ cause.message
  | handlingBroke kind sender reason =>
    "worker panicked handling " ++ kind.name ++ " message from " ++ toString sender ++ ": " ++
      reason
  | resultUnreadable job cause => s!"failed decoding result of job {job}: " ++ cause.message
  | rangeNotSearched job => s!"range of job {job} couldn't be searched"
  | paramsUnreadable cause => "failed decoding search params: " ++ cause.message
  | lostServer server => "lost connection to server at " ++ toString server

def line (n : Notice) : String :=
  n.level.name ++ ": " ++ n.message

end Notice

end Parley
