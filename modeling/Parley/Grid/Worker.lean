import Parley.Grid.Job
import Parley.Network.Basic

/-!
# A worker of a grid

Computes the jobs that its coordinator sends. All compute threads take jobs from one queue; only
one of them at a time looks for the next job, and it asks the coordinator if the queue is empty.

- Looking for a job is three steps: `Worker.enter`, `Worker.ask` and `Worker.take`. Between them
  other threads may push jobs or shut the worker down; `take` is repeated until it finds something.
- `Worker.settle` runs the compute threads until all of them wait.
-/

namespace Parley

/-- How a computation ends. -/
inductive Computed
  | done (outcome : JobOutcome)
  | failed (cause : Error)
  /-- It broke off without a cause. -/
  | broke
deriving DecidableEq, Repr

/-- Why a computation has no outcome. -/
def Computed.cause? : Computed → Option Error
  | done _ => none
  | failed cause => some cause
  | broke => some (.other .computeBrokeOff)

/-- What a worker computes. -/
structure Computation (σ : Type) where
  setInit : Bytes → σ → σ × Option Notice
  compute : σ → Job → Computed

/-- Where a compute thread stands. -/
inductive Phase
  | ready
  | waiting
  | busy
  | resting
  | ended
deriving DecidableEq, Repr

/-- A worker. -/
structure Worker (σ : Type) where
  computation : Computation σ
  state : σ
  /-- Jobs that came and were not taken. -/
  queue : List Job
  running : Bool
  threads : List Phase

namespace Worker

variable {σ : Type}

/-- A worker without threads. -/
def new (computation : Computation σ) (state : σ) : Worker σ :=
  ⟨computation, state, [], true, []⟩

/-- The first step of looking for a job: the worker has to be running. -/
def enter (w : Worker σ) : Except Error Unit :=
  if w.running then .ok () else .error .shuttingDown

/-- The second step: asks the coordinator if there is nothing in the queue. -/
def ask (w : Worker σ) (net : Network) : Except Error Network :=
  if w.queue.isEmpty then net.sendToServer (.grid (.new .newData)) else .ok net

/-- What the last step can find. -/
inductive Taken (σ : Type)
  | job (j : Job) (w : Worker σ)
  | stopped
  /-- Nothing yet: the thread waits. -/
  | nothing

/-- The last step: a job if there is one, and the end if the worker is shut down. -/
def take (w : Worker σ) : Taken σ :=
  match w.queue with
  | j :: rest => .job j { w with queue := rest }
  | [] => if w.running then .nothing else .stopped

/-- A job that is taken was first in the queue. -/
theorem take_eq_job {w w' : Worker σ} {j : Job} (h : w.take = .job j w') :
    ∃ rest, w.queue = j :: rest ∧ w' = { w with queue := rest } := by
  unfold take at h
  split at h
  · next rest hqueue =>
    cases h
    exact ⟨_, hqueue, rfl⟩
  · split at h <;> cases h

def push (w : Worker σ) (j : Job) : Worker σ :=
  { w with queue := w.queue ++ [j] }

/-- What is told about a job that was computed. -/
def reportOf (id : JobId) : Computed → GridMessage
  | .done o => .ofData (if o.correct then .compSuccessful else .compIncorrect) id o.result
  | .failed _ | .broke => .ofJob .compError id

def tell (net : Network) (id : JobId) (result : Computed) : Except Error Network :=
  net.sendToServer (.grid (reportOf id result))

def jobDone (net : Network) (id : JobId) (o : JobOutcome) : Except Error Network :=
  tell net id (.done o)

/-- Reports a failure. -/
def jobError (net : Network) (id : JobId) : Except Error Network :=
  tell net id .broke

/-- Reports on a job that was computed. A failure is written down, and so is a report that cannot be
sent. -/
def report (site : Site) (j : Job) (result : Computed) : Site :=
  let site :=
    match result.cause? with
    | some cause => site.note (.jobFailed j.id cause)
    | none => site
  site.attempt (tell site.net j.id result) (.jobNotReported j.id)

def work (w : Worker σ) (site : Site) (j : Job) : Site :=
  report site j (w.computation.compute w.state j)

/-- How looking for a job ends if nobody else does anything meanwhile. -/
inductive Fetched (σ : Type)
  | job (j : Job) (w : Worker σ) (net : Network)
  | failed (cause : Error)
  | waits (net : Network)

def fetch (w : Worker σ) (net : Network) : Fetched σ :=
  match w.enter with
  | .error e => .failed e
  | .ok () =>
    match w.ask net with
    | .error e => .failed e
    | .ok net =>
      match w.take with
      | .job j w => .job j w net
      | .stopped => .failed .shuttingDown
      | .nothing => .waits net

/-- Puts a thread, whose place is `i`, into a phase. -/
def put (w : Worker σ) (i : Nat) (p : Phase) : Worker σ :=
  { w with threads := w.threads.set i p }

/-- Moves one thread, whose place is `i`, if it can move. A thread that finds a job is busy with it
from then on. -/
def advance (w : Worker σ) (site : Site) (i : Nat) : Option (Worker σ × Site × Option Job) :=
  match w.threads[i]? with
  | some .ready =>
    -- another thread is looking for a job
    if w.threads.contains .waiting then none
    else match w.fetch site.net with
      | .job j w net => some (w.put i .busy, { site with net := net }, some j)
      | .failed .shuttingDown => some (w.put i .ended, site, none)
      | .failed e => some (w.put i .resting, site.note (.noNextJob e), none)
      | .waits net => some (w.put i .waiting, { site with net := net }, none)
  | some .waiting =>
    -- it has asked before, so it does not ask again
    match w.take with
    | .job j w => some (w.put i .busy, site, some j)
    | .stopped => some (w.put i .ended, site, none)
    | .nothing => none
  | some .busy | some .resting | some .ended | none => none

/-- Moves one thread. It is through with a job that it finds before any other thread moves. -/
def moveThread (w : Worker σ) (site : Site) (i : Nat) : Option (Worker σ × Site) :=
  (w.advance site i).map fun (w, site, job) =>
    match job with
    | some j => (w.put i .ready, w.work site j)
    | none => (w, site)

/-- Moves the first thread that can move, if any can. -/
def moveAny (w : Worker σ) (site : Site) : Option (Worker σ × Site) :=
  (List.range w.threads.length).findSome? (w.moveThread site)

/-- Moves threads for a number of rounds, or until none can move. -/
def settleFor : Nat → Worker σ → Site → Worker σ × Site
  | 0, w, site => (w, site)
  | rounds + 1, w, site =>
    match w.moveAny site with
    | some (w, site) => settleFor rounds w site
    | none => (w, site)

/-- Runs the threads until all of them wait. Every move takes a job, ends a thread or makes one
wait, so there are few. -/
def settle (w : Worker σ) (site : Site) : Worker σ × Site :=
  settleFor (2 * w.queue.length + 2 * w.threads.length + 2) w site

/-- Registers with the coordinator and starts compute threads, at least one. -/
def initiate (w : Worker σ) (site : Site) (threads : Nat) : Except Error (Worker σ × Site) :=
  match site.net.sendToServer (.grid (.new .register)) with
  | .error e => .error e
  | .ok net =>
    .ok ({ w with threads := w.threads ++ List.replicate (max threads 1) .ready },
      { site with net := net })

/-- Has the threads end as soon as they look for a job. -/
def stop (w : Worker σ) : Worker σ :=
  { w with running := false }

/-- Tells the coordinator that the worker is gone, if it can be told. -/
def unregister (site : Site) : Site :=
  match site.net.sendToServer (.grid (.new .unregister)) with
  | .ok net => { site with net := net }
  | .error _ => site

/-- Shuts the worker down: the threads end, then the coordinator is told. Shutting down again does
nothing. -/
def shutdown (w : Worker σ) (site : Site) : Worker σ × Site :=
  if !w.running then (w, site)
  else
    let (w, site) := w.stop.settle site
    (w, unregister site)

def handle (w : Worker σ) (site : Site) (now : Nat) (m : Message) :
    Worker σ × Site × Except Error Unit :=
  match m with
  | .grid m =>
    match m.kind, m.data with
    | .initData, data =>
      let (state, notice) := w.computation.setInit (data.getD []) w.state
      ({ w with state := state },
        match notice with
        | some n => site.note n
        | none => site,
        .ok ())
    | .compData, some data => (w.push (.new m.jobId data now), site, .ok ())
    | .compData, none => (w, site, .error (.unexpectedMessage (.jobWithoutData m.jobId)))
    | _, _ => (w, site, .ok ())
  | _ => (w, site, .ok ())

end Worker

end Parley
