import Parley.Grid.Job
import Parley.Network.Basic
import Parley.Toml.Document

/-!
# The configuration file

Settings that a user may keep in a TOML document. Every one can be left out; what is not known is
passed over. A setting that is given twice, or that has a value of another kind, makes the whole
document invalid.

- `Config.ofToml?` reads a document, `Config.networkConfig` and `Config.gridConfig` are what the
  settings mean.
-/

namespace Parley

/-- Settings of the grid. Times are in seconds. -/
structure GridSection where
  jobTimeout : Nat
  maintenanceInterval : Nat
  maxAttempts : Nat
  /-- Number of compute threads. -/
  threads : Option Nat
deriving DecidableEq, Repr

/-- Settings. Times are in milliseconds, and zero turns off what they are for. -/
structure Config where
  encoding : String
  compress : Bool
  heartbeat : Nat
  idleTimeout : Nat
  pollWait : Nat
  maxFrame : Nat
  /-- Number of threads that handle messages. -/
  workerThreads : Option Nat
  grid : GridSection
deriving DecidableEq, Repr

/-- The settings of a grid that are used where none are chosen. -/
def GridSection.default : GridSection where
  jobTimeout := GridConfig.default.jobTimeout
  maintenanceInterval := GridConfig.default.maintenanceInterval
  maxAttempts := GridConfig.default.maxAttempts.toNat
  threads := none

/-- The settings that are used where none are chosen. -/
def Config.default : Config where
  encoding := NetworkConfig.default.encoding.name
  compress := NetworkConfig.default.compress
  heartbeat := NetworkConfig.default.heartbeat.getD 0
  idleTimeout := NetworkConfig.default.idleTimeout.getD 0
  pollWait := NetworkConfig.default.pollWait
  maxFrame := NetworkConfig.default.maxFrame
  workerThreads := none
  grid := .default

instance : Inhabited Config := ⟨Config.default⟩

namespace Config

open Toml (Value Entries)

/-- Reads the value of a key with `read`, or gives `fallback` if there is none. -/
def setting {α : Type} (entries : Entries) (key : String) (read : Value → Option α) (fallback : α) :
    Option α :=
  match entries.filter (·.1 == key) with
  | [] => some fallback
  | [(_, v)] => read v
  | _ => none

def text? : Value → Option String
  | .text content => some content
  | _ => none

def bool? : Value → Option Bool
  | .boolean b => some b
  | _ => none

/-- A number below `limit`. -/
def natBelow? (limit : Nat) : Value → Option Nat
  | .integer n => if 0 ≤ n ∧ n < limit then some n.toNat else none
  | _ => none

/-- A number of 64 bits. -/
def nat? : Value → Option Nat := natBelow? 18446744073709551616

/-- A number of 32 bits. -/
def nat32? : Value → Option Nat := natBelow? 4294967296

def gridOfEntries (entries : Entries) : Option GridSection := do
  let base := GridSection.default
  some {
    jobTimeout := ← setting entries "job_timeout" nat? base.jobTimeout
    maintenanceInterval := ← setting entries "maintenance_interval" nat? base.maintenanceInterval
    maxAttempts := ← setting entries "max_attempts" nat32? base.maxAttempts
    threads := ← setting entries "threads" (nat? · |>.map some) base.threads }

/-- Reads a value that stands at a place of an array, if the array is long enough. -/
def place {α : Type} (items : List Value) (i : Nat) (read : Value → Option α) (fallback : α) :
    Option α :=
  match items[i]? with
  | none => some fallback
  | some v => read v

/-- Reads the settings of a grid. Besides a table there may be an array with the first settings in
their order, and a point in time, which sets nothing. -/
def grid? : Value → Option GridSection
  | .table _ entries => gridOfEntries entries
  | .time => some .default
  | .array items =>
    let base := GridSection.default
    if 4 < items.length then none
    else do
      some {
        jobTimeout := ← place items 0 nat? base.jobTimeout
        maintenanceInterval := ← place items 1 nat? base.maintenanceInterval
        maxAttempts := ← place items 2 nat32? base.maxAttempts
        threads := ← place items 3 (nat? · |>.map some) base.threads }
  | _ => none

def ofEntries (entries : Entries) : Option Config := do
  let base := Config.default
  some {
    encoding := ← setting entries "encoding" text? base.encoding
    compress := ← setting entries "compress" bool? base.compress
    heartbeat := ← setting entries "heartbeat" nat? base.heartbeat
    idleTimeout := ← setting entries "idle_timeout" nat? base.idleTimeout
    pollWait := ← setting entries "poll_wait" nat? base.pollWait
    maxFrame := ← setting entries "max_frame_size" nat? base.maxFrame
    workerThreads := ← setting entries "worker_threads" (nat? · |>.map some) base.workerThreads
    grid := ← setting entries "grid" grid? base.grid }

def ofToml? (text : String) : Option Config :=
  (Toml.parse? text).bind ofEntries

/-- A time that is turned off by zero. -/
def interval (millis : Nat) : Option Nat :=
  if millis = 0 then none else some millis

/-- What the settings mean for a network. -/
def networkConfig (c : Config) : Except Error NetworkConfig := do
  let encoding ← Encoding.parse .full c.encoding
  .ok { NetworkConfig.default with
    encoding := encoding
    compress := c.compress
    heartbeat := interval c.heartbeat
    idleTimeout := interval c.idleTimeout
    pollWait := c.pollWait
    maxFrame := c.maxFrame }

def gridConfig (c : Config) : GridConfig where
  jobTimeout := c.grid.jobTimeout
  maintenanceInterval := c.grid.maintenanceInterval
  maxAttempts := UInt32.ofNat c.grid.maxAttempts

end Config

end Parley
