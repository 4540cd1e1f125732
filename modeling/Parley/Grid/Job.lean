import Parley.Message.Body

/-!
# Jobs

A job of a grid, as the coordinator keeps it while it is out and as a worker computes it, and what
computing it gives.
-/

namespace Parley

/-- A unit of work. -/
structure Job where
  id : JobId
  data : Bytes
  /-- When the job was last handed out. -/
  handedOut : Nat
  /-- How often it was handed out. -/
  attempts : UInt32
deriving DecidableEq, Repr

namespace Job

/-- A job that was handed out never. -/
def new (id : JobId) (data : Bytes) (now : Nat) : Job := ⟨id, data, now, 0⟩

def handOut (j : Job) (now : Nat) : Job :=
  { j with handedOut := now, attempts := j.attempts + 1 }

@[simp] theorem id_handOut (j : Job) (now : Nat) : (j.handOut now).id = j.id := rfl

end Job

/-- The outcome of a job. -/
structure JobOutcome where
  /-- Whether the result counts. -/
  correct : Bool
  result : Bytes
deriving DecidableEq, Repr

/-- Settings of a coordinator. Times are in the unit of its clock. -/
structure GridConfig where
  /-- How long a job may be out before it is handed out again. -/
  jobTimeout : Nat
  maintenanceInterval : Nat
  /-- After how many failures a job is given up. -/
  maxAttempts : UInt32
deriving DecidableEq, Repr

/-- The settings that are used where none are chosen; the clock counts seconds. -/
def GridConfig.default : GridConfig := ⟨1800, 60, 3⟩

instance : Inhabited GridConfig := ⟨GridConfig.default⟩

end Parley
