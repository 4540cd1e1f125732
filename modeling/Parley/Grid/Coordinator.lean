import Parley.Grid.Job
import Parley.Network.Basic

/-!
# The coordinator of a grid

Hands out jobs to workers and takes their reports. A job is out until its first result comes or it
is given up; jobs that are out too long, or that failed on a worker, wait in a queue to be handed
out again.

- `Coordinator.nextJob` hands out the oldest waiting job that is still out, or else a new one.
- `Coordinator.requeueStale` queues the jobs that are out too long, the oldest first.
- `Coordinator.handle` handles a worker's message; every report is answered by at most one
  `JobEvent`.
-/

namespace Parley

/-- Where jobs come from. -/
structure JobSource (γ : Type) where
  /-- What all jobs have in common. -/
  init : γ → Bytes
  next : γ → Bytes × γ

def JobSource.take {γ : Type} (s : JobSource γ) : Nat → γ → List Bytes
  | 0, _ => []
  | count + 1, g => (s.next g).1 :: s.take count (s.next g).2

/-- What a coordinator tells about a job that is not out any more. -/
inductive JobEvent
  | reported (job : JobId) (correct : Bool) (result : Option Bytes)
  | givenUp (job : JobId)
deriving DecidableEq, Repr

/-- A coordinator. -/
structure Coordinator (γ : Type) where
  config : GridConfig
  source : JobSource γ
  generator : γ
  /-- The jobs that are out. -/
  jobs : List Job
  /-- Jobs to be handed out again; some may not be out any more. -/
  resend : List JobId
  nextId : JobId

namespace Coordinator

variable {γ : Type}

/-- A coordinator that has handed out nothing. -/
def new (config : GridConfig) (source : JobSource γ) (generator : γ) : Coordinator γ :=
  ⟨config, source, generator, [], [], 0⟩

/-- The job of an id, if it is out. -/
def job? (c : Coordinator γ) (id : JobId) : Option Job :=
  c.jobs.find? (·.id == id)

def putJob (c : Coordinator γ) (j : Job) : Coordinator γ :=
  { c with jobs := c.jobs.filter (·.id != j.id) ++ [j] }

def retire (c : Coordinator γ) (id : JobId) : Coordinator γ :=
  { c with jobs := c.jobs.filter (·.id != id) }

theorem find?_filter_id (l : List Job) (id other : JobId) :
    (l.filter (·.id != id)).find? (·.id == other) =
      if other = id then none else l.find? (·.id == other) := by
  induction l with
  | nil => simp
  | cons j l ih =>
    by_cases hj : j.id = id
    · by_cases ho : other = id
      · simp [ho]
      · simp [hj, ih, ho, Ne.symm ho]
    · by_cases ho : j.id = other
      · subst ho
        simp [hj]
      · simp [hj, ho, ih]

@[simp] theorem job?_putJob_self (c : Coordinator γ) (j : Job) :
    (c.putJob j).job? j.id = some j := by
  simp only [putJob, job?, List.find?_append, find?_filter_id]
  simp

theorem job?_putJob_of_ne (c : Coordinator γ) (j : Job) {id : JobId} (h : id ≠ j.id) :
    (c.putJob j).job? id = c.job? id := by
  simp only [putJob, job?, List.find?_append, find?_filter_id, if_neg h]
  simp [Ne.symm h]

@[simp] theorem job?_retire_self (c : Coordinator γ) (id : JobId) :
    (c.retire id).job? id = none := by
  simp only [retire, job?, find?_filter_id, if_pos]

theorem job?_retire_of_ne (c : Coordinator γ) {id other : JobId} (h : other ≠ id) :
    (c.retire id).job? other = c.job? other := by
  simp only [retire, job?, find?_filter_id, if_neg h]

/-- Takes the first job out of the queue that is still out. -/
def takeResend (c : Coordinator γ) : List JobId → Option (Job × List JobId)
  | [] => none
  | id :: rest =>
    match c.job? id with
    | some j => some (j, rest)
    | none => takeResend c rest

def generate (c : Coordinator γ) (now : Nat) : Job × Coordinator γ :=
  let (data, generator) := c.source.next c.generator
  let j := (Job.new c.nextId data now).handOut now
  -- none of the jobs in the queue is out any more, or there would be no need for a new one
  (j, { c with resend := [], generator := generator, nextId := c.nextId + 1 }.putJob j)

def nextJob (c : Coordinator γ) (now : Nat) : Job × Coordinator γ :=
  match c.takeResend c.resend with
  | some (j, rest) =>
    let j := j.handOut now
    (j, { c with resend := rest }.putJob j)
  | none => c.generate now

/-- Whether a job has been out too long and does not wait to be handed out again. -/
def isStale (c : Coordinator γ) (now : Nat) (j : Job) : Bool :=
  c.config.jobTimeout < now - j.handedOut && !c.resend.contains j.id

/-- The order of stale jobs: by time, then by id. -/
def older (a b : Job) : Bool :=
  a.handedOut < b.handedOut || (a.handedOut == b.handedOut && a.id ≤ b.id)

/-- The stale jobs, the oldest first. -/
def stale (c : Coordinator γ) (now : Nat) : List Job :=
  (c.jobs.filter (c.isStale now)).mergeSort older

def requeueStale (c : Coordinator γ) (now : Nat) : Nat × Coordinator γ :=
  let found := c.stale now
  (found.length, { c with resend := c.resend ++ found.map (·.id) })

/-- Takes a report of failure: the job is given up if it was handed out often enough, and waits to
be handed out again otherwise. -/
def jobError (c : Coordinator γ) (site : Site) (id : JobId) :
    Coordinator γ × Site × Option JobEvent :=
  match c.job? id with
  | none => (c, site, none)
  | some j =>
    if c.config.maxAttempts ≤ j.attempts then
      (c.retire id, site.note (.jobGivenUp id j.attempts), some (.givenUp id))
    else if c.resend.contains id then (c, site, none)
    else ({ c with resend := c.resend ++ [id] }, site, none)

/-- Takes a result. Only the first one for a job that is out counts. -/
def jobResult (c : Coordinator γ) (id : JobId) (correct : Bool) (result : Option Bytes) :
    Coordinator γ × Option JobEvent :=
  match c.job? id with
  | none => (c, none)
  | some _ => (c.retire id, some (.reported id correct result))

/-- What handling a message leaves behind. -/
structure Handled (γ : Type) where
  coordinator : Coordinator γ
  site : Site
  event : Option JobEvent
  result : Except Error Unit

/-- Sends a message to a worker. What was done before stays done if that fails. -/
def tell (c : Coordinator γ) (site : Site) (worker : Address) (m : GridMessage) : Handled γ :=
  match site.net.send worker (.grid m) with
  | .ok net => ⟨c, { site with net := net }, none, .ok ()⟩
  | .error e => ⟨c, site, none, .error e⟩

/-- What is to be answered to a message, and the coordinator then. -/
def reply? (c : Coordinator γ) (now : Nat) : Message → Option (GridMessage × Coordinator γ)
  | .grid m =>
    match m.kind with
    | .register => some (.ofData .initData 0 (c.source.init c.generator), c)
    | .newData =>
      let (j, c) := c.nextJob now
      some (.ofData .compData j.id j.data, c)
    | _ => none
  | _ => none

/-- Takes in a report. -/
def takeReport (c : Coordinator γ) (site : Site) (m : GridMessage) : Handled γ :=
  match m.kind with
  | .compSuccessful =>
    let (c, event) := c.jobResult m.jobId true m.data
    ⟨c, site, event, .ok ()⟩
  | .compIncorrect =>
    let (c, event) := c.jobResult m.jobId false m.data
    ⟨c, site, event, .ok ()⟩
  | .compError =>
    let (c, site, event) := c.jobError site m.jobId
    ⟨c, site, event, .ok ()⟩
  | _ => ⟨c, site, none, .ok ()⟩

def handle (c : Coordinator γ) (site : Site) (now : Nat) (worker : Address) (m : Message) :
    Handled γ :=
  match c.reply? now m with
  -- a job is out even if the worker cannot be told; it will be too long out then
  | some (reply, c) => c.tell site worker reply
  | none =>
    match m with
    | .grid m => c.takeReport site m
    | _ => ⟨c, site, none, .ok ()⟩

@[simp] theorem handle_register (c : Coordinator γ) (site : Site) (now : Nat) (worker : Address)
    (id : JobId) (data : Option Bytes) :
    c.handle site now worker (.grid ⟨.register, id, data⟩) =
      c.tell site worker (.ofData .initData 0 (c.source.init c.generator)) :=
  rfl

@[simp] theorem handle_newData (c : Coordinator γ) (site : Site) (now : Nat) (worker : Address)
    (id : JobId) (data : Option Bytes) :
    c.handle site now worker (.grid ⟨.newData, id, data⟩) =
      (c.nextJob now).2.tell site worker
        (.ofData .compData (c.nextJob now).1.id (c.nextJob now).1.data) :=
  rfl

end Coordinator

end Parley
