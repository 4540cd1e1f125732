import Parley.CommandLine.Session.Basic

/-!
# The two ends of a prime search

The coordinator waits for workers to go through all ranges. A worker computes until its coordinator
is gone or the user wishes it to end; then it finishes what it is at and says good-bye.
-/

namespace Parley

namespace CommandLine

/-- Coordinating a search. -/
structure Coordinating where
  began : Nat
  maintenance : Timer
deriving DecidableEq, Repr

namespace Coordinating

/-- A grid's settings on the clock of a task; they count seconds. -/
def clocked (config : GridConfig) : GridConfig :=
  { config with
    jobTimeout := config.jobTimeout * second
    maintenanceInterval := config.maintenanceInterval * second }

def start (st : TaskStation) (params : Primes.SearchParams) (needed : UInt64) (config : GridConfig)
    (now : Nat) : Coordinating × TaskStation :=
  let encoding := st.net.config.encoding
  let c := Coordinator.new (clocked config) (Primes.ranges encoding params) 0
  (⟨now, .start now c.config.maintenanceInterval⟩,
    st.modify ({ · with grid := some (.coordinator c (.new encoding needed)) }))

def step (c : Coordinating) (st : TaskStation) (o : Outside) : Step Coordinating :=
  match st.node.grid with
  | some (.coordinator grid tally) =>
    let (maintenance, due) := c.maintenance.look o.now
    let grid := if due then (grid.requeueStale o.now).2 else grid
    let c := { c with maintenance := maintenance }
    let st := st.modify ({ · with grid := some (.coordinator grid tally) })
    let found := Report.found tally (Report.seconds (o.now - c.began))
    if 0 < tally.signals then ⟨c, st, found.map .line, .done⟩
    else if o.interrupted then ⟨c, st, (Report.interrupted :: found).map .line, .done⟩
    else ⟨c, st, [], .goesOn⟩
  | _ => ⟨c, st, [], .done⟩

end Coordinating

/-- Working for a coordinator. -/
structure Working where
  coordinator : Address
  /-- When to look whether the coordinator is still there. -/
  check : Timer
  busy : List (Nat × Job)
  resting : List (Nat × Nat)
deriving DecidableEq, Repr

namespace Working

/-- The worker with the site it works at. -/
abbrev Bench := Worker Primes.SearchParams × Site

def start (st : TaskStation) (coordinator : Address) (threads now : Nat) :
    Except Failure (Working × TaskStation) :=
  let w := Worker.new (Primes.search st.net.config.encoding) .initial
  match w.initiate st.node.site threads with
  | .error cause => .error (.network cause)
  | .ok (w, site) =>
    .ok (⟨coordinator, .start now second, [], []⟩,
      st.modify ({ · with site := site, grid := some (.worker w) }))

/-- Reports on what a thread has computed; the thread is free again. -/
def deliver (state : Working × Bench) (computed : Nat × Computed) : Working × Bench :=
  let (k, w, site) := state
  let (thread, outcome) := computed
  match k.busy.lookup thread with
  | none => state
  | some job =>
    ({ k with busy := k.busy.filter (·.1 != thread) }, w.put thread .ready,
      Worker.report site job outcome)

def wake (now : Nat) (k : Working) (w : Worker Primes.SearchParams) :
    Working × Worker Primes.SearchParams :=
  let (up, resting) := k.resting.partition (·.2 ≤ now)
  ({ k with resting := resting }, up.foldl (fun w (thread, _) => w.put thread .ready) w)

/-- Moves a thread. A thread that finds a job computes it outside. -/
def move (now : Nat) (state : Working × Bench × List Output) (thread : Nat) :
    Working × Bench × List Output :=
  let (k, (w, site), output) := state
  match w.advance site thread with
  | none => state
  | some (w, site, some job) =>
    ({ k with busy := (thread, job) :: k.busy }, (w, site),
      output ++ [.compute thread fun _ => w.computation.compute w.state job])
  | some (w, site, none) =>
    let resting := if w.threads[thread]? = some .resting then [(thread, now + second)] else []
    ({ k with resting := resting ++ k.resting }, (w, site), output)

/-- Looks whether there is a reason to end, and what is told about it. -/
def reason? (k : Working) (st : TaskStation) (o : Outside) : Working × Option (List String) :=
  let (check, due) := k.check.look o.now
  ({ k with check := check },
    if o.interrupted then some [Report.interrupted]
    else if due && !st.net.isConnected k.coordinator then
      some [Report.coordinatorLost, Report.interrupted]
    else none)

def step (k : Working) (st : TaskStation) (o : Outside) : Step Working :=
  match st.node.grid with
  | some (.worker w) =>
    -- a worker that is ending needs no second reason
    let (k, reason) := if w.running then k.reason? st o else (k, none)
    let w := if reason.isSome then w.stop else w
    let (k, w, site) := o.computed.foldl deliver (k, w, st.node.site)
    let (k, w) := wake o.now k w
    let (k, (w, site), output) :=
      (List.range w.threads.length).foldl (move o.now) (k, (w, site), [])
    let through := !w.running && w.threads.all (· == .ended)
    let site := if through then Worker.unregister site else site
    ⟨k, st.modify ({ · with site := site, grid := some (.worker w) }),
      (reason.getD []).map .line ++ output, if through then .done else .goesOn⟩
  | _ => ⟨k, st, [], .done⟩

end Working

end CommandLine

end Parley
