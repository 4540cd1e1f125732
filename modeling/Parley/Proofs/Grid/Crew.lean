import Parley.Grid.Worker
import Parley.Proofs.Grid.Steps

/-!
# The compute threads of a worker

Looking for a job, computing it and reporting on it are several steps of a thread. Between them
other threads may take any of theirs, messages may come, and the worker may be shut down. What a
thread sends is under way to the coordinator only if the network took it, and any send may fail.

* `Crew.Moves` — one step of some thread, with the messages that it sends;
* `Crew.row_moveThread`, `Crew.row_settle`, `Crew.row_shutdown` — what `Worker.moveThread`,
  `Worker.settle` and `Worker.shutdown` do is a row of such steps;
* `Crew.Sound.move`, `Crew.Sound.handle` — all jobs of a worker are as they were made, and its
  reports tell what comes of them.
-/

namespace Parley

namespace GridMessage

/-- What is under way after a message was sent: the message, unless that failed. -/
def sent (m : GridMessage) : Except Error Network → List Message
  | .ok _ => [.grid m]
  | .error _ => []

theorem mem_sent {g : GridMessage} {result : Except Error Network} {m : Message}
    (h : m ∈ g.sent result) : m = .grid g := by
  cases result with
  | ok net => exact List.mem_singleton.mp h
  | error e => cases h

/-- Sending what is under way leads to the network that sending led to. -/
theorem foldlM_sent (m : GridMessage) (send : Network → Message → Except Error Network)
    (net : Network) :
    (m.sent (send net (.grid m))).foldlM send net =
      .ok ((send net (.grid m)).toOption.getD net) := by
  cases hsend : send net (.grid m) with
  | error e => rfl
  | ok net' => simp [sent, hsend, Except.toOption]

end GridMessage

namespace Message

/-- The data to compute with that a message brings. -/
def initData? : Message → Option Bytes
  | .grid ⟨.initData, _, data⟩ => some (data.getD [])
  | _ => none

/-- The job that a message brings. -/
def job? (now : Nat) : Message → Option Job
  | .grid ⟨.compData, id, some data⟩ => some (.new id data now)
  | _ => none

end Message

namespace Worker

/-- A message gives a worker data to compute with, or brings a job to the end of its queue, or changes
nothing. -/
theorem handle_fst {σ : Type} (w : Worker σ) (site : Site) (now : Nat) (m : Message) :
    (w.handle site now m).1 = { w with
      state := (m.initData?.toList).foldl (fun s data => (w.computation.setInit data s).1) w.state
      queue := w.queue ++ (m.job? now).toList } := by
  have unchanged : w = { w with queue := w.queue ++ [] } := by rw [List.append_nil]
  cases m with
  | grid m =>
    obtain ⟨kind, id, data⟩ := m
    cases kind with
    | initData =>
      show ({ w with state := _ } : Worker σ) = { w with state := _, queue := w.queue ++ [] }
      rw [List.append_nil]
      rfl
    | compData =>
      cases data with
      | none => exact unchanged
      | some data => rfl
    | _ => exact unchanged
  | _ => exact unchanged

/-- A report changes the network as sending it does, and not at all if that fails. -/
theorem net_report (site : Site) (j : Job) (result : Computed) :
    (report site j result).net = (tell site.net j.id result).toOption.getD site.net := by
  have hattempt : ∀ (s : Site) (r : Except Error Network) (n : Error → Notice),
      (s.attempt r n).net = r.toOption.getD s.net := by
    intro s r n
    cases r <;> rfl
  cases result with
  | done o => exact hattempt site _ _
  | failed cause => exact hattempt (site.note _) _ _
  | broke => exact hattempt (site.note _) _ _

/-- The coordinator is told that a worker is gone, or nothing is sent. -/
theorem net_unregister (site : Site) :
    (unregister site).net =
      ((site.net.sendToServer (.grid (.new .unregister))).toOption.getD site.net) := by
  unfold unregister
  cases site.net.sendToServer (.grid (.new .unregister)) <;> rfl

variable {σ : Type}

@[simp] theorem put_put (w : Worker σ) (i : Nat) (p q : Phase) :
    (w.put i p).put i q = w.put i q := by
  simp [put]

theorem take_put {w w' : Worker σ} {j : Job} (h : w.take = .job j w') (i : Nat) (p : Phase) :
    (w.put i p).take = .job j (w'.put i p) := by
  obtain ⟨rest, hqueue, rfl⟩ := take_eq_job h
  simp [take, put, hqueue]

/-- How looking for a job ends, by the step at which it ends. -/
theorem fetch_cases (w : Worker σ) (net : Network) :
    (w.enter = .error .shuttingDown ∧ w.fetch net = .failed .shuttingDown) ∨
      (w.enter = .ok () ∧ ∃ e, w.ask net = .error e ∧ w.fetch net = .failed e) ∨
      (w.enter = .ok () ∧ ∃ net', w.ask net = .ok net' ∧ w.take = .nothing ∧
        w.fetch net = .waits net') ∨
      (w.enter = .ok () ∧ ∃ net' j w', w.ask net = .ok net' ∧ w.take = .job j w' ∧
        w.fetch net = .job j w' net') := by
  unfold fetch enter
  by_cases hrunning : w.running = true
  · rw [if_pos hrunning]
    cases hask : w.ask net with
    | error e => simp
    | ok net' =>
      cases htake : w.take with
      | job j w' => simp
      | nothing => simp
      | stopped =>
        -- a worker that runs does not stop
        exfalso
        unfold take at htake
        split at htake
        · cases htake
        · rw [if_pos hrunning] at htake
          cases htake
  · rw [if_neg hrunning]
    exact .inl ⟨rfl, rfl⟩

end Worker

/-- Where a thread of a worker stands, with what it holds. -/
inductive Place
  | ready
  /-- It alone looks for a job, and it found the worker running. -/
  | entered
  /-- It alone looks for a job, and it has asked for one if there was none. -/
  | asked
  | computing (j : Job)
  | reporting (j : Job) (result : Computed)
  /-- It could not ask. -/
  | resting
  | ended

def Place.phase : Place → Phase
  | ready => .ready
  | entered | asked => .waiting
  | computing _ | reporting .. => .busy
  | resting => .resting
  | ended => .ended

/-- Where a thread stands that could not go on looking for a job. -/
def Place.afterError : Error → Place
  | .shuttingDown => ended
  | _ => resting

/-- A worker with the places of its threads. -/
structure Crew (σ : Type) where
  worker : Worker σ
  places : List Place

namespace Crew

variable {σ : Type}

/-- A worker before it has registered. -/
def new (computation : Computation σ) (state : σ) : Crew σ :=
  ⟨.new computation state, []⟩

/-- A thread goes to another place. -/
def put (c : Crew σ) (i : Nat) (p : Place) : Crew σ :=
  ⟨c.worker.put i p.phase, c.places.set i p⟩

/-- What can happen next in a worker, apart from the messages that come, and what it sends. -/
inductive Moves (c : Crew σ) : List Message → Crew σ → Prop
  /-- A thread begins to look for a job, if no other one does. -/
  | enter {i : Nat} (ready : c.places[i]? = some .ready)
      (alone : c.worker.threads.contains .waiting = false)
      (running : c.worker.enter = .ok ()) : Moves c [] (c.put i .entered)
  | leave {i : Nat} {e : Error} (ready : c.places[i]? = some .ready)
      (stopped : c.worker.enter = .error e) : Moves c [] (c.put i .ended)
  | ask {i : Nat} {net net' : Network} (entered : c.places[i]? = some .entered)
      (asked : c.worker.ask net = .ok net') :
      Moves c (if c.worker.queue.isEmpty then [.grid (.new .newData)] else []) (c.put i .asked)
  | rest {i : Nat} {net : Network} {e : Error} (entered : c.places[i]? = some .entered)
      (failed : c.worker.ask net = .error e) : Moves c [] (c.put i (.afterError e))
  | wake {i : Nat} (resting : c.places[i]? = some .resting) : Moves c [] (c.put i .ready)
  | take {i : Nat} {j : Job} {w : Worker σ} (asked : c.places[i]? = some .asked)
      (taken : c.worker.take = .job j w) :
      Moves c [] ({ c with worker := w }.put i (.computing j))
  | stopped {i : Nat} (asked : c.places[i]? = some .asked) (stopped : c.worker.take = .stopped) :
      Moves c [] (c.put i .ended)
  | compute {i : Nat} {j : Job} (computing : c.places[i]? = some (.computing j)) :
      Moves c [] (c.put i (.reporting j (c.worker.computation.compute c.worker.state j)))
  | report {i : Nat} {j : Job} {result : Computed} (net : Network)
      (reporting : c.places[i]? = some (.reporting j result)) :
      Moves c ((Worker.reportOf j.id result).sent (Worker.tell net j.id result)) (c.put i .ready)
  /-- The worker registers, and its threads start. -/
  | initiate {site site' : Site} {threads : Nat} {w : Worker σ}
      (registered : c.worker.initiate site threads = .ok (w, site')) :
      Moves c [.grid (.new .register)] ⟨w, c.places ++ List.replicate (max threads 1) .ready⟩
  | stop : Moves c [] { c with worker := c.worker.stop }
  | unregister (net : Network) (stopped : c.worker.running = false) :
      Moves c (GridMessage.sent (.new .unregister)
        (net.sendToServer (.grid (.new .unregister)))) c

/-! ## Threads that nobody comes between -/

/-- A row of steps, with all that is sent. -/
inductive Row (c : Crew σ) : List Message → Crew σ → Prop
  | nil : Row c [] c
  | snoc {ms ms' : List Message} {c' c'' : Crew σ} :
      Row c ms c' → Moves c' ms' c'' → Row c (ms ++ ms') c''

theorem Moves.row {c c' : Crew σ} {ms : List Message} (h : c.Moves ms c') : c.Row ms c' :=
  Row.nil.snoc h

theorem Row.append {c c' c'' : Crew σ} {ms ms' : List Message} (h : c.Row ms c')
    (h' : c'.Row ms' c'') : c.Row (ms ++ ms') c'' := by
  induction h' with
  | nil => simpa using h
  | snoc _ hm ih => simpa using ih.snoc hm

theorem getElem?_put {c : Crew σ} {i : Nat} {p : Place} (h : c.places[i]? = some p) (q : Place) :
    (c.put i q).places[i]? = some q := by
  obtain ⟨hlt, -⟩ := List.getElem?_eq_some_iff.mp h
  exact List.getElem?_set_self hlt

@[simp] theorem put_put (c : Crew σ) (i : Nat) (p q : Place) : (c.put i p).put i q = c.put i q := by
  simp [put, Worker.put]

/-- A thread that has a job computes it and reports on it. -/
theorem row_work {c : Crew σ} {i : Nat} {j : Job} (h : c.places[i]? = some (.computing j))
    (site : Site) : ∃ ms, c.Row ms (c.put i .ready) ∧
      ms.foldlM Network.sendToServer site.net = .ok (c.worker.work site j).net := by
  let result := c.worker.computation.compute c.worker.state j
  let m := Worker.reportOf j.id result
  refine ⟨m.sent (Worker.tell site.net j.id result), ?_, ?_⟩
  · have computed : c.Row [] (c.put i (.reporting j result)) := (Moves.compute h).row
    have reported := computed.snoc (Moves.report site.net (getElem?_put h _))
    rwa [put_put] at reported
  · show _ = Except.ok (Worker.report site j result).net
    rw [Worker.net_report]
    exact m.foldlM_sent Network.sendToServer site.net

/-- A thread that waits for a job takes one, computes it and reports on it. -/
theorem row_take {c : Crew σ} {i : Nat} {j : Job} {w : Worker σ} (h : c.places[i]? = some .asked)
    (taken : c.worker.take = .job j w) (site : Site) :
    ∃ ms, c.Row ms ({ c with worker := w }.put i .ready) ∧
      ms.foldlM Network.sendToServer site.net = .ok (w.work site j).net := by
  have took := (Moves.take h taken).row
  have hplace : ({ c with worker := w } : Crew σ).places[i]? = some .asked := h
  obtain ⟨ms, worked, hsent⟩ := row_work (getElem?_put hplace (.computing j)) site
  rw [put_put] at worked
  exact ⟨ms, took.append worked, hsent⟩

/-- A thread goes on looking for a job as far as asking for one. -/
theorem row_ask {c : Crew σ} {i : Nat} {net net' : Network} (h : c.places[i]? = some .ready)
    (alone : c.worker.threads.contains .waiting = false) (running : c.worker.enter = .ok ())
    (asked : c.worker.ask net = .ok net') :
    ∃ ms, c.Row ms (c.put i .asked) ∧ ms.foldlM Network.sendToServer net = .ok net' := by
  have entered := (Moves.enter h alone running).row
  have hasked : (c.put i .entered).worker.ask net = .ok net' := asked
  have row := entered.snoc (Moves.ask (getElem?_put h _) hasked)
  rw [put_put] at row
  refine ⟨_, row, ?_⟩
  show List.foldlM _ net (if c.worker.queue.isEmpty then _ else _) = _
  unfold Worker.ask at asked
  by_cases hempty : c.worker.queue.isEmpty = true
  · rw [if_pos hempty] at asked ⊢
    simp [asked]
  · rw [if_neg hempty] at asked ⊢
    exact asked

end Crew

/-- Where a thread stands between two moves of a worker, when none of them is busy. -/
def Phase.place : Phase → Place
  | ready => .ready
  | waiting => .asked
  | resting => .resting
  | busy | ended => .ended

namespace Crew

variable {σ : Type}

/-- A worker between two moves. -/
def between (w : Worker σ) : Crew σ :=
  ⟨w, w.threads.map Phase.place⟩

theorem put_between (w : Worker σ) (i : Nat) {p : Place} (h : p.phase.place = p) :
    (between w).put i p = between (w.put i p.phase) := by
  simp [between, put, Worker.put, List.map_set, h]

/-- The places of the other threads do not change when a worker is seen with one job less. -/
theorem between_take {w w' : Worker σ} {j : Job} (taken : w.take = .job j w') :
    (⟨w', (between w).places⟩ : Crew σ) = between w' := by
  obtain ⟨rest, -, rfl⟩ := Worker.take_eq_job taken
  rfl

/-- The thread that waits goes on as soon as there is a job, or the worker is shut down. -/
theorem row_advance_waiting {w w' : Worker σ} {site site' : Site} {i : Nat}
    (hphase : w.threads[i]? = some .waiting) (h : w.moveThread site i = some (w', site')) :
    ∃ ms, (between w).Row ms (between w') ∧
      ms.foldlM Network.sendToServer site.net = .ok site'.net := by
  have hplace : (between w).places[i]? = some .asked := by simp [between, hphase, Phase.place]
  simp only [Worker.moveThread, Worker.advance, hphase] at h
  cases htake : w.take with
  | nothing => simp [htake] at h
  | stopped =>
    simp only [htake, Option.map_some, Option.some.injEq, Prod.mk.injEq] at h
    obtain ⟨rfl, rfl⟩ := h
    have row := (Moves.stopped hplace htake).row
    rw [put_between w i rfl] at row
    exact ⟨[], row, rfl⟩
  | job j w₁ =>
    simp only [htake, Option.map_some, Option.some.injEq, Prod.mk.injEq] at h
    obtain ⟨rfl, rfl⟩ := h
    obtain ⟨ms, row, hsent⟩ := row_take hplace htake site
    rw [between_take htake, put_between w₁ i rfl] at row
    rw [Worker.put_put]
    exact ⟨ms, row, hsent⟩

@[simp] theorem place_phase_afterError (e : Error) :
    (Place.afterError e).phase.place = .afterError e := by
  cases e <;> rfl

/-- A thread that cannot go on looking for a job rests, or ends with its worker. -/
theorem advance_of_failed {w : Worker σ} {site : Site} {i : Nat}
    (hphase : w.threads[i]? = some .ready) (alone : w.threads.contains .waiting = false) {e : Error}
    (hfetch : w.fetch site.net = .failed e) :
    ∃ site', w.advance site i = some (w.put i (Place.afterError e).phase, site', none) ∧
      site'.net = site.net := by
  simp only [Worker.advance, hphase, alone, hfetch]
  cases e with
  | shuttingDown => exact ⟨site, rfl, rfl⟩
  | _ => exact ⟨site.note _, rfl, rfl⟩

/-- A thread that is ready looks for a job if no other one does. -/
theorem row_advance_ready {w w' : Worker σ} {site site' : Site} {i : Nat}
    (hphase : w.threads[i]? = some .ready) (h : w.moveThread site i = some (w', site')) :
    ∃ ms, (between w).Row ms (between w') ∧
      ms.foldlM Network.sendToServer site.net = .ok site'.net := by
  have hplace : (between w).places[i]? = some .ready := by simp [between, hphase, Phase.place]
  cases alone : w.threads.contains .waiting with
  | true =>
    simp only [Worker.moveThread, Worker.advance, hphase, alone] at h
    cases h
  | false =>
    rcases w.fetch_cases site.net with ⟨henter, hfetch⟩ | ⟨henter, e, hask, hfetch⟩ |
      ⟨henter, net, hask, htake, hfetch⟩ | ⟨henter, net, j, w₁, hask, htake, hfetch⟩
    · obtain ⟨site₁, hadvance, hnet⟩ := advance_of_failed hphase alone hfetch
      simp only [Worker.moveThread, hadvance, Option.map_some, Option.some.injEq,
        Prod.mk.injEq] at h
      obtain ⟨rfl, rfl⟩ := h
      have row := (Moves.leave hplace henter).row
      rw [put_between w i rfl] at row
      exact ⟨[], row, congrArg _ hnet.symm⟩
    · obtain ⟨site₁, hadvance, hnet⟩ := advance_of_failed hphase alone hfetch
      simp only [Worker.moveThread, hadvance, Option.map_some, Option.some.injEq,
        Prod.mk.injEq] at h
      obtain ⟨rfl, rfl⟩ := h
      have hentered : (between w).Row [] ((between w).put i .entered) :=
        (Moves.enter hplace alone henter).row
      have hfailed : ((between w).put i .entered).worker.ask site.net = .error e := hask
      have row := hentered.snoc (Moves.rest (getElem?_put hplace _) hfailed)
      rw [put_put, put_between w i (place_phase_afterError e)] at row
      exact ⟨[], row, congrArg _ hnet.symm⟩
    · simp only [Worker.moveThread, Worker.advance, hphase, alone, hfetch] at h
      obtain ⟨rfl, rfl⟩ := Prod.mk.inj (Option.some.inj h)
      obtain ⟨ms, row, hsent⟩ := row_ask hplace alone henter hask
      rw [put_between w i rfl] at row
      exact ⟨ms, row, hsent⟩
    · simp only [Worker.moveThread, Worker.advance, hphase, alone, hfetch] at h
      obtain ⟨rfl, rfl⟩ := Prod.mk.inj (Option.some.inj h)
      obtain ⟨ms, asked, hsent⟩ := row_ask hplace alone henter hask
      obtain ⟨ms', worked, hsent'⟩ := row_take (getElem?_put hplace .asked)
        (Worker.take_put htake i .waiting) { site with net := net }
      have hcrew : ({ (between w).put i .asked with worker := w₁.put i .waiting } : Crew σ) =
          (between w₁).put i .asked := by
        rw [← between_take htake]
        rfl
      rw [hcrew, put_put, put_between w₁ i rfl] at worked
      refine ⟨ms ++ ms', ?_, ?_⟩
      · rw [Worker.put_put]
        exact asked.append worked
      · rw [List.foldlM_append, hsent]
        exact hsent'

/-- A thread that nobody comes between moves by such steps, and what they send is all that it
sends. -/
theorem row_moveThread {w w' : Worker σ} {site site' : Site} {i : Nat}
    (h : w.moveThread site i = some (w', site')) :
    ∃ ms, (between w).Row ms (between w') ∧
      ms.foldlM Network.sendToServer site.net = .ok site'.net := by
  cases hphase : w.threads[i]? with
  | none => simp [Worker.moveThread, Worker.advance, hphase] at h
  | some phase =>
    cases phase with
    | ready => exact row_advance_ready hphase h
    | waiting => exact row_advance_waiting hphase h
    | busy => simp [Worker.moveThread, Worker.advance, hphase] at h
    | resting => simp [Worker.moveThread, Worker.advance, hphase] at h
    | ended => simp [Worker.moveThread, Worker.advance, hphase] at h

/-- Threads that move by themselves until all of them wait do so by such steps. -/
theorem row_settle (w : Worker σ) (site : Site) :
    ∃ ms, (between w).Row ms (between (w.settle site).1) ∧
      ms.foldlM Network.sendToServer site.net = .ok (w.settle site).2.net := by
  unfold Worker.settle
  generalize 2 * w.queue.length + 2 * w.threads.length + 2 = rounds
  induction rounds generalizing w site with
  | zero => exact ⟨[], .nil, rfl⟩
  | succ rounds ih =>
    unfold Worker.settleFor
    cases hmove : w.moveAny site with
    | none => exact ⟨[], .nil, rfl⟩
    | some moved =>
      obtain ⟨w₁, site₁⟩ := moved
      obtain ⟨i, -, hthread⟩ := List.exists_of_findSome?_eq_some hmove
      obtain ⟨ms, row, hsent⟩ := row_moveThread hthread
      obtain ⟨ms', row', hsent'⟩ := ih w₁ site₁
      refine ⟨ms ++ ms', row.append row', ?_⟩
      rw [List.foldlM_append, hsent]
      exact hsent'

/-- A worker that is shut down stays so. -/
theorem Moves.stays_stopped {c c' : Crew σ} {ms : List Message} (h : c.Moves ms c')
    (hstopped : c.worker.running = false) : c'.worker.running = false := by
  cases h with
  | take asked taken =>
    obtain ⟨rest, -, rfl⟩ := Worker.take_eq_job taken
    exact hstopped
  | initiate registered =>
    unfold Worker.initiate at registered
    split at registered
    · cases registered
    · cases registered
      exact hstopped
  | stop => rfl
  | _ => exact hstopped

theorem Row.stays_stopped {c c' : Crew σ} {ms : List Message} (h : c.Row ms c')
    (hstopped : c.worker.running = false) : c'.worker.running = false := by
  induction h with
  | nil => exact hstopped
  | snoc _ hm ih => exact hm.stays_stopped ih

/-- Shutting a worker down is such a row, too: it stops, its threads move, and it unregisters. -/
theorem row_shutdown (w : Worker σ) (site : Site) :
    ∃ ms, (between w).Row ms (between (w.shutdown site).1) ∧
      ms.foldlM Network.sendToServer site.net = .ok (w.shutdown site).2.net := by
  unfold Worker.shutdown
  cases hrunning : w.running with
  | false => exact ⟨[], .nil, rfl⟩
  | true =>
    have stopped : (between w).Row [] (between w.stop) := Moves.stop.row
    obtain ⟨ms, settled, hsent⟩ := row_settle w.stop site
    have hstopped : (w.stop.settle site).1.running = false := settled.stays_stopped rfl
    have unregistered := settled.snoc (Moves.unregister (w.stop.settle site).2.net hstopped)
    refine ⟨_, stopped.append unregistered, ?_⟩
    rw [List.nil_append, List.foldlM_append, hsent]
    show _ = Except.ok (Worker.unregister (w.stop.settle site).2).net
    rw [Worker.net_unregister]
    exact GridMessage.foldlM_sent _ _ _

end Crew

/-! ## Jobs and results -/

open Coordinator (Call Finding)

/-- The result that a computation gives, if it is done. -/
def Computed.finding? (id : JobId) : Computed → Option Finding
  | .done o => some ⟨id, o.correct, some o.result⟩
  | .failed _ => none
  | .broke => none

theorem finding?_reportOf (site : Site) (now : Nat) (a : Address) (id : JobId)
    (result : Computed) :
    (Call.message site now a (.grid (Worker.reportOf id result))).finding? =
      result.finding? id := by
  cases result with
  | done o =>
    obtain ⟨correct, bytes⟩ := o
    cases correct <;> rfl
  | failed cause => rfl
  | broke => rfl

/-- A job that a message brings is as it was made. -/
def Message.Brings (origin : JobId → Bytes) (m : Message) : Prop :=
  ∀ id data, m = .grid ⟨.compData, id, some data⟩ → data = origin id

/-- A result that a message tells comes of the job as it was made. -/
def Message.Tells (origin : JobId → Bytes) (f : Bytes → Computed) (m : Message) : Prop :=
  ∀ site now a r, (Call.message site now a m).finding? = some r →
    (f (origin r.job)).finding? r.job = some r

/-- What a thread holds is a job as it was made, or what comes of it. -/
def Place.Holds (origin : JobId → Bytes) (f : Bytes → Computed) : Place → Prop
  | computing j => j.data = origin j.id
  | reporting j result => result = f (origin j.id)
  | _ => True

namespace Crew

variable {σ : Type} {origin : JobId → Bytes} {f : Bytes → Computed} {c c' : Crew σ}

/-- All jobs of a worker are as they were made. -/
structure Sound (origin : JobId → Bytes) (f : Bytes → Computed) (c : Crew σ) : Prop where
  computes : ∀ s j, c.worker.computation.compute s j = f j.data
  queue : ∀ j ∈ c.worker.queue, j.data = origin j.id
  places : ∀ p ∈ c.places, p.Holds origin f

theorem sound_new (origin : JobId → Bytes) {computation : Computation σ}
    (fixed : ∀ s j, computation.compute s j = f j.data) (state : σ) :
    (new computation state).Sound origin f where
  computes := fixed
  queue := fun _ h => nomatch h
  places := fun _ h => nomatch h

theorem Sound.put (h : c.Sound origin f) (i : Nat) {p : Place} (hp : p.Holds origin f) :
    (c.put i p).Sound origin f := by
  refine ⟨h.computes, h.queue, ?_⟩
  intro q hq
  rcases List.mem_or_eq_of_mem_set hq with hq | rfl
  · exact h.places q hq
  · exact hp

theorem Sound.place (h : c.Sound origin f) {i : Nat} {p : Place} (hp : c.places[i]? = some p) :
    p.Holds origin f :=
  h.places p (List.mem_of_getElem? hp)

/-- A thread takes a job as it was made. -/
theorem Sound.take (h : c.Sound origin f) {w : Worker σ} {j : Job}
    (taken : c.worker.take = .job j w) :
    ({ c with worker := w } : Crew σ).Sound origin f ∧ j.data = origin j.id := by
  obtain ⟨rest, hqueue, rfl⟩ := Worker.take_eq_job taken
  have hjobs := h.queue
  rw [hqueue] at hjobs
  refine ⟨⟨h.computes, ?_, h.places⟩, hjobs j List.mem_cons_self⟩
  intro other hother
  exact hjobs other (List.mem_cons_of_mem _ hother)

/-- A message that tells no result. -/
theorem tells_of_kind {g : GridMessage} (hdone : g.kind ≠ .compSuccessful)
    (hincorrect : g.kind ≠ .compIncorrect) : (Message.grid g).Tells origin f := by
  obtain ⟨kind, id, data⟩ := g
  intro site now a r hr
  cases kind with
  | compSuccessful => exact absurd rfl hdone
  | compIncorrect => exact absurd rfl hincorrect
  | _ => cases hr

/-- What threads do keeps jobs as they were made, and what they send tells what comes of jobs. -/
theorem Sound.move (h : c.Sound origin f) {ms : List Message} (hm : c.Moves ms c') :
    c'.Sound origin f ∧ ∀ m ∈ ms, m.Tells origin f := by
  have nothing : ∀ m ∈ ([] : List Message), m.Tells origin f := fun _ hm => nomatch hm
  cases hm with
  | enter ready alone running => exact ⟨h.put _ trivial, nothing⟩
  | leave ready stopped => exact ⟨h.put _ trivial, nothing⟩
  | ask entered asked =>
    refine ⟨h.put _ trivial, ?_⟩
    intro m hm
    split at hm
    · rw [List.mem_singleton.mp hm]
      exact tells_of_kind nofun nofun
    · cases hm
  | @rest i net e entered failed =>
    refine ⟨h.put _ ?_, nothing⟩
    cases e <;> trivial
  | wake resting => exact ⟨h.put _ trivial, nothing⟩
  | take asked taken =>
    obtain ⟨hsound, hdata⟩ := h.take taken
    exact ⟨hsound.put _ hdata, nothing⟩
  | stopped asked stopped => exact ⟨h.put _ trivial, nothing⟩
  | @compute i j computing =>
    refine ⟨h.put _ ?_, nothing⟩
    show c.worker.computation.compute c.worker.state j = f (origin j.id)
    rw [h.computes, show j.data = origin j.id from h.place computing]
  | @report i j result net reporting =>
    refine ⟨h.put _ trivial, ?_⟩
    intro m hm site now a r hr
    have hresult : result = f (origin j.id) := h.place reporting
    rw [GridMessage.mem_sent hm, finding?_reportOf] at hr
    have hjob : r.job = j.id := by
      cases result with
      | done o =>
        cases hr
        rfl
      | failed cause => cases hr
      | broke => cases hr
    rw [hjob, ← hresult]
    exact hr
  | @initiate site site' threads w registered =>
    unfold Worker.initiate at registered
    split at registered
    · cases registered
    · cases registered
      refine ⟨⟨h.computes, h.queue, ?_⟩, ?_⟩
      · intro p hp
        rcases List.mem_append.mp hp with hp | hp
        · exact h.places p hp
        · rw [List.eq_of_mem_replicate hp]
          trivial
      · intro m hm
        rw [List.mem_singleton.mp hm]
        exact tells_of_kind nofun nofun
  | stop => exact ⟨⟨h.computes, h.queue, h.places⟩, nothing⟩
  | unregister net stopped =>
    refine ⟨h, ?_⟩
    intro m hm
    rw [GridMessage.mem_sent hm]
    exact tells_of_kind nofun nofun

/-- A message that brings a job as it was made leaves all jobs so. -/
theorem Sound.handle (h : c.Sound origin f) {m : Message} (hm : m.Brings origin) (site : Site)
    (now : Nat) :
    ({ c with worker := (c.worker.handle site now m).1 } : Crew σ).Sound origin f := by
  cases m with
  | grid m =>
    obtain ⟨kind, id, data⟩ := m
    cases kind with
    | initData => exact ⟨h.computes, h.queue, h.places⟩
    | compData =>
      cases data with
      | none => exact h
      | some data =>
        refine ⟨h.computes, ?_, h.places⟩
        intro j hj
        rcases List.mem_append.mp hj with hj | hj
        · exact h.queue j hj
        · rw [List.mem_singleton.mp hj]
          exact hm id data rfl
    | _ => exact h
  | _ => exact h

end Crew

end Parley
