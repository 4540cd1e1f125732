import Parley.CommandLine.Matches
import Parley.Config
import Parley.Primes.Search

/-!
# From the command line to a plan

What the program is going to do, decided before it does anything: the configuration is read, then
the numbers of the subcommand, then the encoding, then the address. The first of them that is
unusable ends the program.

- `Plan.ofMatches` decides; the one thing it asks of the outside is the text of a file.
- `Failure.message` and `Failure.cause?` word what ends the program.
-/

namespace Parley

namespace CommandLine

/-- Why the program ends without success. -/
inductive Failure
  /-- An option that has to have a value has none. -/
  | noValue (setting : Setting)
  /-- The value of an option is no number. -/
  | noNumber (setting : Setting) (value : String) (fault : Decimal.Fault)
  | nothingToSearch
  /-- There are more ranges to search than can be counted. -/
  | tooManyRanges
  | unreadableConfig (path : String) (fault : HostFault)
  | invalidConfig (path : String)
  /-- The network failed. -/
  | network (cause : Error)
deriving DecidableEq, Repr

namespace Failure

/-- The text of a failure. -/
def message : Failure → String
  | noValue s => "missing value for argument: " ++ s.long
  | noNumber s value fault =>
    "failed parsing " ++ s.long ++ " value \"" ++ value ++ "\": " ++ fault.message
  | nothingToSearch => "limit and batch size must be greater than zero"
  | tooManyRanges => "attempt to add with overflow"
  | unreadableConfig path _ => "failed reading config file: " ++ path
  | invalidConfig path => "invalid config file: " ++ path
  | network cause => cause.message

/-- The text of what lies behind a failure, where that is something else. -/
def cause? : Failure → Option String
  | unreadableConfig _ fault => some fault.message
  | network (.host fault) => some fault.message
  | _ => none

/-- Whether a failure breaks the program off. -/
def isFatal : Failure → Bool
  | tooManyRanges => true
  | _ => false

/-- What the program tells of a failure when it ends; nothing if it is broken off. -/
def lines (f : Failure) : List String :=
  if f.isFatal then []
  else ("error: " ++ f.message) ::
    match f.cause? with
    | some cause => ["Caused by:", cause]
    | none => []

end Failure

/-- Numbers of 64 bits. -/
def wordCount : Nat := 18446744073709551616

/-- The value of an option as a number of 64 bits. -/
def Matches.nat (m : Matches) (s : Setting) : Except Failure Nat :=
  match m.value? s with
  | none => .error (.noValue s)
  | some value =>
    match Decimal.parseBelow wordCount value with
    | .ok n => .ok n
    | .error fault => .error (.noNumber s value fault)

/-- What is written about while the program runs. -/
inductive Verbosity
  | off | error | warn | info | debug | trace
deriving DecidableEq, Repr

def Verbosity.ofWord : String → Verbosity
  | "0" | "none" => off
  | "1" | "err" | "error" | "min" => error
  | "2" | "warn" | "warning" | "default" => warn
  | "3" | "info" => info
  | "4" | "debug" => debug
  | "5" | "trace" | "max" | "all" => trace
  | _ => warn

def Verbosity.shows (v : Verbosity) : Level → Bool
  | .error => v != .off
  | .warn => v != .off && v != .error

/-- What a subcommand does. Where a number of threads is missing, the number of processors counts. -/
inductive Task
  | serveChat (threads : Option Nat)
  | chat (room name : String)
  | coordinate (params : Primes.SearchParams) (grid : GridConfig) (threads : Option Nat)
  | work (threads : Option Nat)
  | ping (count : Nat)
deriving DecidableEq, Repr

/-- Whether a task connects to a server, rather than being one. -/
def Task.connects : Task → Bool
  | serveChat _ | coordinate .. => false
  | chat .. | work _ | ping _ => true

/-- A task, and the network it runs on. -/
structure Plan where
  verbosity : Verbosity
  task : Task
  network : NetworkConfig
  /-- Where to listen, or the server to connect to. -/
  endpoint : Endpoint
deriving DecidableEq, Repr

namespace Plan

/-- Reads the configuration file, if there is one. -/
def configOf (readFile : String → Except HostFault String) (path : Option String) :
    Except Failure Config :=
  match path with
  | none => .ok .default
  | some path =>
    match readFile path with
    | .error fault => .error (.unreadableConfig path fault)
    | .ok text =>
      match Config.ofToml? text with
      | some c => .ok c
      | none => .error (.invalidConfig path)

/-- The number of compute threads: an option goes before the configuration. -/
def threadsOf (m : Matches) (c : Config) : Except Failure (Option Nat) :=
  match m.value? .threads with
  | some _ => some <$> m.nat .threads
  | none => .ok c.grid.threads

def taskOf (m : Matches) (c : Config) : Except Failure Task :=
  match m.subcommand with
  | .chatServer => .ok (.serveChat c.workerThreads)
  | .chat =>
    .ok (.chat ((m.value? .room).getD ChatMessage.mainRoom) ((m.value? .name).getD "anonymous"))
  | .gridCoord => do
    let limit ← m.nat .limit
    let batch ← m.nat .batch
    if limit = 0 || batch = 0 then throw .nothingToSearch
    pure (.coordinate ⟨UInt64.ofNat batch, UInt64.ofNat limit⟩ c.gridConfig c.workerThreads)
  | .gridWorker => .work <$> threadsOf m c
  | .ping => .ping <$> m.nat .count

def ofMatches (readFile : String → Except HostFault String) (m : Matches) :
    Except Failure Plan := do
  let c ← configOf readFile (m.value? .config)
  let task ← taskOf m c
  let network ← c.networkConfig.mapError .network
  let endpoint ← (Endpoint.parse m.address).mapError fun fault => .network (.host (.badEndpoint fault))
  pure ⟨.ofWord ((m.value? .verbosity).getD ""), task, network, endpoint⟩

end Plan

end CommandLine

end Parley
