import Parley.CommandLine.Plan
import Parley.CommandLine.Report
import Parley.Primes.Tally
import Parley.Station

/-!
# What a running task is made of

A task runs in turns. What comes from outside during a turn is its input (`Outside`), what goes to
the outside is its output (`Output`). Between the two stands a station whose services are those of
the program: it shares no objects and takes no messages of users, and its grid is the prime search.
-/

namespace Parley

namespace CommandLine

/-- One second on the clock of a task, which counts nanoseconds. -/
def second : Nat := 1000000000

/-- What comes from outside during a turn. -/
structure Outside where
  now : Nat
  streams : Streams
  typed : List String
  typedOut : Bool
  interrupted : Bool
  /-- Computations that have ended, with the threads they ran on. -/
  computed : List (Nat × Computed)

/-- What goes to the outside. -/
inductive Output
  | line (text : String)
  | notice (n : Notice)
  | stream (effect : Effect)
  | compute (thread : Nat) (work : Unit → Computed)

/-- How a task stands at the end of a turn. -/
inductive Standing
  | goesOn
  | done
  | failed (cause : Failure)

/-- The end of a grid that the program plays. -/
inductive GridEnd
  | coordinator (c : Coordinator UInt64) (tally : Primes.Tally)
  | worker (w : Worker Primes.SearchParams)

namespace GridEnd

/-- Counts what a coordinator tells about a job. What the tally writes down goes to the journal of
the site. -/
def count (tally : Primes.Tally) (site : Site) (event : Option JobEvent) : Primes.Tally × Site :=
  let tally := event.elim tally tally.take
  ({ tally with journal := [] }, { site with journal := site.journal ++ tally.journal })

def handle (now : Nat) : Handling GridEnd
  | .coordinator c tally, site, sender, m =>
    let h := c.handle site now sender m
    let (tally, site) := count tally h.site h.event
    (.coordinator h.coordinator tally, site, h.result)
  | .worker w, site, _, m =>
    let (w, site, result) := w.handle site now m
    (.worker w, site, result)

end GridEnd

/-- The station of a task. -/
abbrev TaskStation := Station Empty GridEnd Empty

def services (now : Nat) : Services Empty GridEnd Empty where
  objects := ⟨nofun, nofun, fun _ => nofun, nofun⟩
  grid := GridEnd.handle now
  user := nofun

/-- What a task does in a turn, once its station has had its own. -/
structure Step (τ : Type) where
  task : τ
  station : TaskStation
  output : List Output
  standing : Standing

/-- A point in time at which something is due, and due again after every `period`. -/
structure Timer where
  next : Nat
  period : Nat
deriving DecidableEq, Repr

namespace Timer

def start (now period : Nat) : Timer := ⟨now + period, period⟩

/-- The timer after a look at the clock, and whether something was due. -/
def look (t : Timer) (now : Nat) : Timer × Bool :=
  if t.next ≤ now then (.start now t.period, true) else (t, false)

end Timer

end CommandLine

end Parley
