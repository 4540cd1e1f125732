import Mathlib.Logic.Relation
import Parley.Proofs.Grid.Crew

/-!
# Calls for the next job

Any number of threads call for the next job of a worker while others push jobs or shut the worker
down. One call after the other has its turn; the others are queued behind it. Whoever pushes a job
has the queue of jobs for itself, and so has a call from looking for a job to falling asleep. To
look whether the worker runs needs no lock, and to stop it needs none either, but waking everybody
does.

Each of these is one step, and between two steps of one thread any other may take its own. A call
that finds nothing sleeps until somebody wakes it, or until it wakes up for no reason. It asks for a
job as `Worker.ask` does, but of the jobs that it saw when it looked: others may be there by then.

* `Worker.exists_request`, `Network.IsRequest` — what asking for a job puts into the queue of the
  network;
* `Fetcher.Moves`, `Fetchers.Step` — one step of a call, and everything that can happen next;
* `Fetchers.exists_fetched`, `Fetchers.run_push`, `Fetchers.run_handle`, `Fetchers.run_stop` — a
  thread that nobody comes between does what `Worker.fetch`, `Worker.push`, `Worker.handle` and
  `Worker.stop` do, and leaves the network that they leave.
-/

namespace Parley

namespace Worker

variable {σ : Type} {w : Worker σ}

/-- A thread that finds no job finds that there are none. -/
theorem queue_eq_nil_of_take (h : ∀ j w', w.take ≠ .job j w') : w.queue = [] := by
  cases hqueue : w.queue with
  | nil => rfl
  | cons j rest =>
    have htake : w.take = .job j { w with queue := rest } := by rw [take, hqueue]
    exact absurd htake (h j _)

/-- It waits if the worker runs. -/
theorem take_eq_nothing_iff : w.take = .nothing ↔ w.queue = [] ∧ w.running = true := by
  unfold take
  split
  · next hqueue => simp [hqueue]
  · next hqueue => simp [hqueue]

/-- It ends if the worker was stopped. -/
theorem take_eq_stopped_iff : w.take = .stopped ↔ w.queue = [] ∧ w.running = false := by
  unfold take
  split
  · next hqueue => simp [hqueue]
  · next hqueue => simp [hqueue]

theorem eq_shuttingDown_of_enter {e : Error} (h : w.enter = .error e) : e = .shuttingDown := by
  unfold enter at h
  split at h
  · cases h
  · exact (Except.error.inj h).symm

end Worker

namespace Network

/-- A command that asks the server of a network for a job. -/
def IsRequest (net : Network) (c : Command) : Prop :=
  ∃ server bytes, net.remoteAddress = some server ∧
    encode net.config (.grid (.new .newData)) = .ok bytes ∧ c = .send server bytes

theorem IsRequest.congr {net net' : Network} {c : Command} (h : net.IsRequest c)
    (config : net'.config = net.config) (server : net'.remoteAddress = net.remoteAddress) :
    net'.IsRequest c := by
  unfold IsRequest
  rw [config, server]
  exact h

/-- What is sent to the server stands last in the queue. -/
theorem sendToServer_ok {net net' : Network} {m : Message} (h : net.sendToServer m = .ok net') :
    ∃ server bytes, net.remoteAddress = some server ∧ encode net.config m = .ok bytes ∧
      net' = { net with queue := net.queue ++ [.send server bytes] } := by
  unfold sendToServer at h
  cases hserver : net.remoteAddress with
  | none =>
    rw [hserver] at h
    cases h
  | some server =>
    rw [hserver] at h
    obtain ⟨bytes, hencode, hnet⟩ := send_ok h
    exact ⟨server, bytes, rfl, hencode, hserver ▸ hnet⟩

end Network

namespace Worker

variable {σ : Type} {w : Worker σ} {net net' : Network}

/-- With a job in the queue there is nothing to ask for. -/
theorem ask_of_ne_nil (h : w.queue ≠ []) (net : Network) : w.ask net = .ok net := by
  unfold ask
  rw [if_neg (by simpa using h)]

/-- Without one a request is queued, and nothing else changes. -/
theorem exists_request (hqueue : w.queue = []) (h : w.ask net = .ok net') :
    ∃ c, net.IsRequest c ∧ net' = { net with queue := net.queue ++ [c] } := by
  unfold ask at h
  rw [if_pos (by simp [hqueue])] at h
  obtain ⟨server, bytes, hserver, hencode, rfl⟩ := Network.sendToServer_ok h
  exact ⟨_, ⟨server, bytes, hserver, hencode, rfl⟩, rfl⟩

/-- Asking puts something into the queue of the network at most. -/
theorem net_ask (h : w.ask net = .ok net') :
    net' = { net with queue := net.queue ++ net'.queue.drop net.queue.length } := by
  by_cases hqueue : w.queue = []
  · obtain ⟨c, -, rfl⟩ := exists_request hqueue h
    simp
  · obtain rfl : net = net' := Except.ok.inj ((ask_of_ne_nil hqueue net).symm.trans h)
    simp

/-- Only a worker without jobs can fail to ask. -/
theorem queue_eq_nil_of_ask {e : Error} (h : w.ask net = .error e) : w.queue = [] := by
  cases hqueue : w.queue with
  | nil => rfl
  | cons j rest =>
    have hne : w.queue ≠ [] := by simp [hqueue]
    cases (ask_of_ne_nil hne net).symm.trans h

end Worker

/-- Where a call for the next job stands. -/
inductive FetchStage
  /-- It waits for its turn. -/
  | queued
  /-- It has its turn. -/
  | entered
  /-- It has found the worker running. -/
  | admitted
  /-- It has looked at the queue of jobs, and is to ask for a job if there was none. -/
  | asking
  /-- It is about to take a job from the queue. -/
  | taking
  /-- It has found no job, and keeps the queue for itself. -/
  | missed
  /-- It has found the worker running after that, and still keeps the queue for itself. -/
  | drowsy
  | asleep
  | finished (result : Except Error Job)

namespace FetchStage

/-- Whether a call has its turn. -/
def isInside : FetchStage → Bool
  | queued | finished _ => false
  | _ => true

/-- Whether a call keeps the queue of jobs for itself. -/
def isHolding : FetchStage → Bool
  | missed | drowsy => true
  | _ => false

def isAsleep : FetchStage → Bool
  | asleep => true
  | _ => false

def isOver : FetchStage → Bool
  | finished _ => true
  | _ => false

/-- The job that a call has returned. -/
def job? : FetchStage → Option Job
  | finished (.ok j) => some j
  | _ => none

/-- Whether a call has ended in an error. -/
def hasFailed : FetchStage → Bool
  | finished (.error _) => true
  | _ => false

theorem eq_asleep {s : FetchStage} (h : s.isAsleep = true) : s = asleep := by
  cases s with
  | asleep => rfl
  | _ => cases h

theorem isInside_of_isAsleep {s : FetchStage} (h : s.isAsleep = true) : s.isInside = true := by
  rw [eq_asleep h]
  rfl

theorem isInside_of_isHolding {s : FetchStage} (h : s.isHolding = true) : s.isInside = true := by
  cases s with
  | missed => rfl
  | drowsy => rfl
  | _ => cases h

theorem isHolding_of_outside {s : FetchStage} (h : s.isInside = false) : s.isHolding = false := by
  cases hholding : s.isHolding with
  | false => rfl
  | true => cases h.symm.trans (isInside_of_isHolding hholding)

end FetchStage

/-- A call for the next job, and what it has seen and done so far. -/
structure Fetcher where
  stage : FetchStage
  /-- Whether it found the worker running, if it has looked. -/
  running? : Option Bool
  /-- The queue of jobs as it found it, if it has looked. -/
  seen? : Option (List Job)
  /-- What its requests for a job have put into the queue of the network, or how they failed. -/
  requests : List (Except Error Command)
  slept : Bool

namespace Fetcher

/-- A call that has just been made. -/
def new : Fetcher :=
  ⟨.queued, none, none, [], false⟩

/-- Whether a call found the queue of jobs empty, if it has looked. -/
def empty? (f : Fetcher) : Option Bool :=
  f.seen?.map List.isEmpty

/-- The requests of a call that were queued. -/
def queued (f : Fetcher) : List Command :=
  f.requests.filterMap Except.toOption

theorem queued_of_requests {f : Fetcher} {requests : List (Except Error Command)}
    {commands : List Command} (h : f.requests = requests ++ commands.map .ok) :
    f.queued = requests.filterMap Except.toOption ++ commands := by
  rw [queued, h, List.filterMap_append, List.filterMap_map]
  exact congrArg _ (List.filterMap_some ..)

theorem mem_queued_iff {f : Fetcher} {c : Command} : c ∈ f.queued ↔ .ok c ∈ f.requests := by
  rw [queued, List.mem_filterMap]
  constructor
  · rintro ⟨r, hr, hc⟩
    cases r with
    | error e => cases hc
    | ok c' =>
      cases hc
      exact hr
  · exact fun hc => ⟨_, hc, rfl⟩

/-- A call is woken, if it sleeps. -/
def awake (f : Fetcher) : Fetcher :=
  if f.stage.isAsleep then { f with stage := .taking } else f

variable {σ : Type}

/-- One step of a call, with the worker and the network before and after it. -/
inductive Moves (w : Worker σ) (net : Network) (others : List Fetcher) (f : Fetcher) :
    Worker σ → Network → Fetcher → Prop
  /-- Its turn comes when no other call has it. -/
  | enter (stage : f.stage = .queued) (alone : ∀ g ∈ others, g.stage.isInside = false) :
      Moves w net others f w net { f with stage := .entered }
  | proceed (stage : f.stage = .entered) (running : w.enter = .ok ()) :
      Moves w net others f w net { f with stage := .admitted, running? := some true }
  | refuse {e : Error} (stage : f.stage = .entered) (stopped : w.enter = .error e) :
      Moves w net others f w net { f with stage := .finished (.error e), running? := some false }
  | look (stage : f.stage = .admitted) :
      Moves w net others f w net { f with stage := .asking, seen? := some w.queue }
  /-- It asks as a worker does that has the jobs that it saw. -/
  | ask {seen : List Job} {net' : Network} (stage : f.stage = .asking)
      (looked : f.seen? = some seen) (asked : Worker.ask { w with queue := seen } net = .ok net') :
      Moves w net others f w net' { f with
        stage := .taking
        requests := f.requests ++ (net'.queue.drop net.queue.length).map .ok }
  | fail {seen : List Job} {e : Error} (stage : f.stage = .asking)
      (looked : f.seen? = some seen) (failed : Worker.ask { w with queue := seen } net = .error e) :
      Moves w net others f w net { f with
        stage := .finished (.error e), requests := f.requests ++ [.error e] }
  | take {w' : Worker σ} {j : Job} (stage : f.stage = .taking) (taken : w.take = .job j w') :
      Moves w net others f w' net { f with stage := .finished (.ok j) }
  | miss (stage : f.stage = .taking) (empty : ∀ j w', w.take ≠ .job j w') :
      Moves w net others f w net { f with stage := .missed }
  | stop (stage : f.stage = .missed) (stopped : w.take = .stopped) :
      Moves w net others f w net { f with stage := .finished (.error .shuttingDown) }
  | stay (stage : f.stage = .missed) (nothing : w.take = .nothing) :
      Moves w net others f w net { f with stage := .drowsy }
  /-- It gives up the queue as it falls asleep. -/
  | sleep (stage : f.stage = .drowsy) :
      Moves w net others f w net { f with stage := .asleep, slept := true }

end Fetcher

/-- What a thread has left to do that has pushed a job, or has stopped the worker. -/
inductive Duty
  | wakeOne
  | wakeAll
deriving DecidableEq

/-- A worker, its network, and the calls for its next job, with the jobs that were pushed and those
that were returned, in their order. -/
structure Fetchers (σ : Type) where
  worker : Worker σ
  net : Network
  calls : List Fetcher
  duties : List Duty
  pushed : List Job
  returned : List Job

namespace Fetchers

variable {σ : Type}

/-- A new worker at a network. -/
def start (computation : Computation σ) (state : σ) (net : Network) : Fetchers σ :=
  ⟨.new computation state, net, [], [], [], []⟩

/-- No call keeps the queue of jobs for itself. -/
def Free (w : Fetchers σ) : Prop :=
  ∀ f ∈ w.calls, f.stage.isHolding = false

/-- The call that was made as number `k` moves. -/
def Goes (w : Fetchers σ) (k : Nat) (w' : Fetchers σ) : Prop :=
  ∃ front f back worker net f', w.calls = front ++ f :: back ∧ front.length = k ∧
    f.Moves w.worker w.net (front ++ back) worker net f' ∧
    w' = { w with
      worker := worker
      net := net
      calls := front ++ f' :: back
      returned := w.returned ++ f'.stage.job?.toList }

/-- Everything that can happen next. -/
inductive Step : Fetchers σ → Fetchers σ → Prop
  | call (w : Fetchers σ) : Step w { w with calls := w.calls ++ [.new] }
  | go {w w' : Fetchers σ} {k : Nat} (goes : w.Goes k w') : Step w w'
  /-- A call wakes up for no reason. -/
  | stir {w : Fetchers σ} {front back : List Fetcher} {f : Fetcher}
      (calls : w.calls = front ++ f :: back) : Step w { w with calls := front ++ f.awake :: back }
  /-- Somebody pushes a job. -/
  | push {w : Fetchers σ} (j : Job) (free : w.Free) :
      Step w { w with
        worker := w.worker.push j
        pushed := w.pushed ++ [j]
        duties := w.duties ++ [.wakeOne] }
  /-- Somebody shuts down the worker, which runs. -/
  | stop {w : Fetchers σ} (running : w.worker.running = true) :
      Step w { w with worker := w.worker.stop, duties := w.duties ++ [.wakeAll] }
  /-- One call that sleeps is woken. -/
  | wakeOne {w : Fetchers σ} {done rest : List Duty} {front back : List Fetcher} {f : Fetcher}
      (duties : w.duties = done ++ .wakeOne :: rest) (calls : w.calls = front ++ f :: back)
      (asleep : f.stage.isAsleep = true) :
      Step w { w with duties := done ++ rest, calls := front ++ f.awake :: back }
  /-- There is nobody to be woken. -/
  | wakeNone {w : Fetchers σ} {done rest : List Duty} (duties : w.duties = done ++ .wakeOne :: rest)
      (nobody : ∀ f ∈ w.calls, f.stage.isAsleep = false) :
      Step w { w with duties := done ++ rest }
  | wakeAll {w : Fetchers σ} {done rest : List Duty} (duties : w.duties = done ++ .wakeAll :: rest)
      (free : w.Free) :
      Step w { w with duties := done ++ rest, calls := w.calls.map Fetcher.awake }
  /-- The worker is given other data to compute with. -/
  | change (w : Fetchers σ) (s : σ) : Step w { w with worker := { w.worker with state := s } }
  /-- Others use the network, or its connections change, or it ends. -/
  | drift {w : Fetchers σ} (net : Network) (config : net.config = w.net.config)
      (server : net.remoteAddress = w.net.remoteAddress) : Step w { w with net := net }

/-- Any number of steps. -/
abbrev Run : Fetchers σ → Fetchers σ → Prop :=
  Relation.ReflTransGen Step

/-! ## Nobody comes between -/

/-- A call that was made last moves, and returns no job by that. -/
theorem run_last {w : Fetchers σ} {net : Network} {f f' : Fetcher}
    (hmoves : f.Moves w.worker w.net w.calls w.worker net f') (hnone : f'.stage.job? = none) :
    Run { w with calls := w.calls ++ [f] } { w with net := net, calls := w.calls ++ [f'] } := by
  refine .single (.go (k := w.calls.length) ⟨w.calls, f, [], w.worker, net, f', rfl, rfl, ?_, ?_⟩)
  · rw [List.append_nil]
    exact hmoves
  · simp [hnone]

/-- A call looks at the queue while no other has its turn. -/
theorem run_asking (w : Fetchers σ) (alone : ∀ g ∈ w.calls, g.stage.isInside = false)
    (running : w.worker.enter = .ok ()) :
    Run w { w with calls := w.calls ++ [⟨.asking, some true, some w.worker.queue, [], false⟩] } := by
  have called : Run w { w with calls := w.calls ++ [.new] } := .single (.call w)
  have entered := called.trans (run_last (.enter rfl alone) rfl)
  have admitted := entered.trans (run_last (.proceed rfl running) rfl)
  exact admitted.trans (run_last (.look rfl) rfl)

/-- It gets as far as taking a job if it can ask for one, or need not. -/
theorem run_taking (w : Fetchers σ) (alone : ∀ g ∈ w.calls, g.stage.isInside = false)
    (running : w.worker.enter = .ok ()) {net : Network} (asked : w.worker.ask w.net = .ok net) :
    ∃ f : Fetcher, f.stage = .taking ∧ net = { w.net with queue := w.net.queue ++ f.queued } ∧
      Run w { w with net := net, calls := w.calls ++ [f] } := by
  have taking := (run_asking w alone running).trans (run_last (.ask rfl rfl asked) rfl)
  refine ⟨_, rfl, ?_, taking⟩
  rw [Fetcher.queued_of_requests rfl]
  exact Worker.net_ask asked

/-- It falls asleep if it finds nothing to take. -/
theorem run_dozing (w : Fetchers σ) {f : Fetcher} (stage : f.stage = .taking)
    (nothing : w.worker.take = .nothing) :
    Run { w with calls := w.calls ++ [f] }
      { w with calls := w.calls ++ [{ f with stage := .asleep, slept := true }] } := by
  have missed := run_last (w := w) (.miss stage (by simp [nothing])) rfl
  have drowsy := missed.trans (run_last (.stay rfl nothing) rfl)
  exact drowsy.trans (run_last (.sleep rfl) rfl)

/-- A call that is made while no other has its turn, and that nobody comes between, ends or falls
asleep as `Worker.fetch` says, and the network gets the requests that it notes. -/
theorem exists_fetched (w : Fetchers σ) (alone : ∀ g ∈ w.calls, g.stage.isInside = false) :
    ∃ f : Fetcher, match w.worker.fetch w.net with
      | .job j worker net => f.stage = .finished (.ok j) ∧
          net = { w.net with queue := w.net.queue ++ f.queued } ∧
          Run w { w with
            worker := worker, net := net, calls := w.calls ++ [f], returned := w.returned ++ [j] }
      | .failed e => f.stage = .finished (.error e) ∧ f.queued = [] ∧
          Run w { w with calls := w.calls ++ [f] }
      | .waits net => f.stage = .asleep ∧
          net = { w.net with queue := w.net.queue ++ f.queued } ∧
          Run w { w with net := net, calls := w.calls ++ [f] } := by
  rcases w.worker.fetch_cases w.net with ⟨henter, hfetch⟩ | ⟨henter, e, hask, hfetch⟩ |
    ⟨henter, net', hask, htake, hfetch⟩ | ⟨henter, net', j, w', hask, htake, hfetch⟩
  · rw [hfetch]
    have entered : Run w _ := .head (.call w) (run_last (.enter rfl alone) rfl)
    exact ⟨_, rfl, rfl, entered.trans (run_last (.refuse rfl henter) rfl)⟩
  · rw [hfetch]
    have asking := run_asking w alone henter
    exact ⟨_, rfl, rfl, asking.trans (run_last (.fail rfl rfl hask) rfl)⟩
  · rw [hfetch]
    obtain ⟨f, hstage, hnet, taking⟩ := run_taking w alone henter hask
    exact ⟨{ f with stage := .asleep, slept := true }, rfl, hnet,
      taking.trans (run_dozing { w with net := net' } hstage htake)⟩
  · rw [hfetch]
    obtain ⟨f, hstage, hnet, taking⟩ := run_taking w alone henter hask
    refine ⟨{ f with stage := .finished (.ok j) }, rfl, hnet,
      taking.tail (.go (k := w.calls.length) ?_)⟩
    refine ⟨w.calls, f, [], w', net', _, rfl, rfl, ?_, rfl⟩
    rw [List.append_nil]
    exact .take hstage htake

/-- A job that is pushed while nobody keeps the queue, and nobody sleeps, is all that happens. -/
theorem run_push {w : Fetchers σ} (j : Job) (free : w.Free)
    (nobody : ∀ f ∈ w.calls, f.stage.isAsleep = false) :
    Run w { w with worker := w.worker.push j, pushed := w.pushed ++ [j] } := by
  have woken := Step.wakeNone (w := { w with
    worker := w.worker.push j, pushed := w.pushed ++ [j], duties := w.duties ++ [.wakeOne] })
    rfl nobody
  rw [List.append_nil] at woken
  exact .tail (.single (.push j free)) woken

/-- A message that comes while nobody keeps the queue, and nobody sleeps, gives the worker other
data, or is a job that is pushed, or changes nothing. -/
theorem run_handle {w : Fetchers σ} (free : w.Free)
    (nobody : ∀ f ∈ w.calls, f.stage.isAsleep = false) (site : Site) (now : Nat) (m : Message) :
    Run w { w with
      worker := (w.worker.handle site now m).1
      pushed := w.pushed ++ (m.job? now).toList } := by
  rw [Worker.handle_fst]
  generalize m.initData?.toList.foldl _ w.worker.state = state
  have changed : Run w { w with worker := { w.worker with state := state } } :=
    .single (.change w state)
  cases m.job? now with
  | none =>
    simp only [Option.toList_none, List.append_nil]
    exact changed
  | some j => exact changed.trans (run_push j free nobody)

/-- A worker that runs is shut down while nobody keeps the queue: those that sleep are woken. -/
theorem run_stop {w : Fetchers σ} (running : w.worker.running = true) (free : w.Free) :
    Run w { w with worker := w.worker.stop, calls := w.calls.map Fetcher.awake } := by
  have woken := Step.wakeAll (w := { w with
    worker := w.worker.stop, duties := w.duties ++ [.wakeAll] }) rfl free
  rw [List.append_nil] at woken
  exact .tail (.single (.stop running)) woken

end Fetchers

end Parley
