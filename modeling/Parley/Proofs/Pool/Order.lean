import Mathlib.Logic.Function.Basic
import Mathlib.Logic.Relation
import Parley.Pool

/-!
# Each sender is heard in its own order

A pool whose workers are at work. Between the moment when a worker takes a message off its lane and
the moment when it is through with it, anything may happen: other lanes begin and end, messages are
queued, the pool is shut down. What is kept of all this is kept for each lane, and a sender is heard
on one lane only.

- `Workshop.Step`: one thing that happens in a pool. The worker of each lane goes on by itself.
- `Workshop.Sound.step`: on each lane, what was queued is what was begun and what waits, and what was
  begun is what has ended and what is in hand.
- `Workshop.Sound.exists_shutdown`: a pool can be shut down at any moment, and all that it has taken is
  handled before it is over.
- `Workshop.handled_in_order`: the messages of a sender are handled once each and in their order.
-/

namespace Parley

/-! ## Taking a message and being through with it -/

namespace Pool

variable {σ : Type}

/-- The messages that wait on a lane. -/
def waiting (p : Pool σ) (lane : Nat) : List Letter :=
  p.lanes[lane]?.getD []

/-- The pool with other messages on a lane. -/
def setLane (p : Pool σ) (lane : Nat) (letters : List Letter) : Pool σ :=
  { p with lanes := p.lanes.set lane letters }

/-- The worker of a lane is through with a message. -/
def settle (p : Pool σ) (lane : Nat) (l : Letter) : Pool σ :=
  let (state, outcome) := p.worker p.state l
  { p with
    state := state
    handled := p.handled ++ [(lane, l)]
    journal := p.journal ++ (outcome.notice? l).toList }

/-- The lane of a sender. -/
def laneFor (p : Pool σ) (a : Address) : Nat :=
  p.laneOf a % p.lanes.length

/-- The errors that were written down. -/
def errors (p : Pool σ) : List Notice :=
  p.journal.filter (·.level == .error)

theorem lt_of_waiting {p : Pool σ} {lane : Nat} (h : p.waiting lane ≠ []) :
    lane < p.lanes.length := by
  by_contra hlt
  refine h ?_
  rw [waiting, List.getElem?_eq_none (Nat.not_lt.mp hlt)]
  rfl

theorem waiting_new (worker : σ → Letter → σ × Handled) (laneOf : Address → Nat) (state : σ)
    (threads lane : Nat) : (new worker laneOf state threads).waiting lane = [] := by
  simp only [waiting, new, List.getElem?_replicate]
  split <;> rfl

theorem waiting_setLane {p : Pool σ} {lane : Nat} (h : lane < p.lanes.length)
    (letters : List Letter) (i : Nat) :
    (p.setLane lane letters).waiting i = if i = lane then letters else p.waiting i := by
  by_cases hi : i = lane
  · subst hi
    simp [waiting, setLane, h]
  · simp [waiting, setLane, hi, Ne.symm hi]

/-- A message goes to the end of the lane of its sender. -/
theorem waiting_process {p : Pool σ} (hopen : p.accepting = true) {l : Letter}
    (h : p.laneFor l.sender < p.lanes.length) (i : Nat) :
    (p.process l).waiting i = p.waiting i ++ if p.laneFor l.sender = i then [l] else [] := by
  simp only [waiting, process, hopen, if_true, List.getElem?_modify]
  by_cases hi : p.laneFor l.sender = i
  · subst hi
    have hlt : p.laneOf l.sender % p.lanes.length < p.lanes.length := h
    simp [laneFor, hlt]
  · have hother : ¬ p.laneOf l.sender % p.lanes.length = i := hi
    simp [hi, hother]

theorem process_of_closed {p : Pool σ} (hclosed : p.accepting = false) (l : Letter) :
    p.process l = { p with journal := p.journal ++ [.poolShutDown l.sender] } := by
  simp [process, hclosed]

/-- A step of a lane is taking a message and being through with it. -/
theorem step_of_waiting {p : Pool σ} {lane : Nat} {l : Letter} {rest : List Letter}
    (h : p.waiting lane = l :: rest) : p.step lane = (p.setLane lane rest).settle lane l := by
  have hlanes : p.lanes[lane]? = some (l :: rest) := by
    unfold waiting at h
    cases hlane : p.lanes[lane]? with
    | none => simp [hlane] at h
    | some letters =>
      rw [hlane] at h
      exact congrArg some h
  simp only [step, hlanes]
  rfl

theorem step_of_empty {p : Pool σ} {lane : Nat} (h : p.waiting lane = []) : p.step lane = p := by
  unfold waiting at h
  unfold step
  cases hlane : p.lanes[lane]? with
  | none => rfl
  | some letters =>
    rw [hlane] at h
    obtain rfl : letters = [] := h
    rfl

/-! ### What emptying the lanes does -/

theorem accepting_step (p : Pool σ) (lane : Nat) : (p.step lane).accepting = p.accepting := by
  unfold step
  split <;> rfl

theorem waiting_step (p : Pool σ) (lane i : Nat) :
    (p.step lane).waiting i = if i = lane then (p.waiting i).tail else p.waiting i := by
  cases h : p.waiting lane with
  | nil =>
    rw [step_of_empty h]
    by_cases hi : i = lane
    · rw [if_pos hi, hi, h]
      rfl
    · rw [if_neg hi]
  | cons l rest =>
    have hlt : lane < p.lanes.length := lt_of_waiting (h ▸ List.cons_ne_nil l rest)
    rw [step_of_waiting h]
    show (p.setLane lane rest).waiting i = _
    rw [waiting_setLane hlt]
    by_cases hi : i = lane
    · rw [if_pos hi, if_pos hi, hi, h]
      rfl
    · rw [if_neg hi, if_neg hi]

theorem waiting_runLane (lane i n : Nat) (p : Pool σ) :
    (p.runLane lane n).waiting i = if i = lane then (p.waiting i).drop n else p.waiting i := by
  induction n generalizing p with
  | zero => exact (ite_self _).symm
  | succ n ih =>
    show ((p.step lane).runLane lane n).waiting i = _
    rw [ih, waiting_step]
    by_cases hi : i = lane
    · rw [if_pos hi, if_pos hi, if_pos hi, List.drop_tail]
    · rw [if_neg hi, if_neg hi, if_neg hi]

/-- Lets a lane run empty. -/
def emptyLane (p : Pool σ) (lane : Nat) : Pool σ :=
  p.runLane lane (p.waiting lane).length

theorem waiting_emptyLane (p : Pool σ) (lane i : Nat) :
    (p.emptyLane lane).waiting i = if i = lane then [] else p.waiting i := by
  rw [emptyLane, waiting_runLane]
  by_cases hi : i = lane
  · rw [if_pos hi, if_pos hi, hi, List.drop_length]
  · rw [if_neg hi, if_neg hi]

/-- Shutting down lets one lane after the other run empty. -/
theorem finish_eq (p : Pool σ) : p.finish = (List.range p.lanes.length).foldl emptyLane p := by
  unfold finish
  congr 1
  funext p lane
  show p.runLane lane _ = p.runLane lane _
  congr 1
  unfold waiting
  cases p.lanes[lane]? <;> rfl

theorem waiting_foldl_emptyLane (lanes : List Nat) (p : Pool σ) (i : Nat) :
    (lanes.foldl emptyLane p).waiting i = if i ∈ lanes then [] else p.waiting i := by
  induction lanes generalizing p with
  | nil => rfl
  | cons lane lanes ih =>
    rw [List.foldl_cons, ih, waiting_emptyLane]
    by_cases hi : i = lane <;> simp [hi]

/-- Nothing waits in a pool that was shut down. -/
theorem waiting_finish (p : Pool σ) (i : Nat) : p.finish.waiting i = [] := by
  rw [finish_eq, waiting_foldl_emptyLane]
  split
  · rfl
  · rename_i hi
    by_contra h
    exact hi (List.mem_range.mpr (lt_of_waiting h))

theorem accepting_shutdown (p : Pool σ) : p.shutdown.accepting = false := by
  have hrun (lane n : Nat) (p : Pool σ) : (p.runLane lane n).accepting = p.accepting := by
    induction n generalizing p with
    | zero => rfl
    | succ n ih => exact (ih _).trans (accepting_step p lane)
  have hall (lanes : List Nat) (p : Pool σ) :
      (lanes.foldl emptyLane p).accepting = p.accepting := by
    induction lanes generalizing p with
    | nil => rfl
    | cons lane lanes ih => exact (ih _).trans (hrun lane _ p)
  rw [shutdown, finish_eq, hall]
  rfl

end Pool

/-! ## A pool at work -/

/-- A pool and what its workers are about. What was queued, begun and ended is kept for the record,
the oldest first. -/
structure Workshop (σ : Type) where
  pool : Pool σ
  /-- The message that the worker of a lane is handling. -/
  hands : Nat → Option Letter
  /-- The messages that the pool took. -/
  queued : List Letter
  /-- The messages that a worker took off its lane to handle them. -/
  begun : List Letter
  /-- The messages whose handling is over, and how it ended. -/
  ended : List (Letter × Handled)

namespace Workshop

variable {σ : Type}

/-- The messages whose handling is over. -/
def handled (w : Workshop σ) : List Letter :=
  w.ended.map Prod.fst

/-- A new pool. -/
def start (worker : σ → Letter → σ × Handled) (laneOf : Address → Nat) (state : σ)
    (threads : Nat) : Workshop σ :=
  ⟨.new worker laneOf state threads, fun _ => none, [], [], []⟩

/-- One thing that happens. -/
inductive Step : Workshop σ → Workshop σ → Prop
  /-- Somebody brings a message, which is queued unless the pool was shut down. -/
  | process (w : Workshop σ) (l : Letter) :
      Step w { w with
        pool := w.pool.process l
        queued := w.queued ++ if w.pool.accepting then [l] else [] }
  /-- A worker with empty hands takes the first message of its lane. -/
  | take {w : Workshop σ} (lane : Nat) {l : Letter} {rest : List Letter}
      (hwaiting : w.pool.waiting lane = l :: rest) (hidle : w.hands lane = none) :
      Step w { w with
        pool := w.pool.setLane lane rest
        hands := Function.update w.hands lane (some l)
        begun := w.begun ++ [l] }
  /-- A worker is through with the message in its hands. -/
  | settle {w : Workshop σ} (lane : Nat) {l : Letter} (hhand : w.hands lane = some l) :
      Step w { w with
        pool := w.pool.settle lane l
        hands := Function.update w.hands lane none
        ended := w.ended ++ [(l, (w.pool.worker w.pool.state l).2)] }
  /-- The pool takes no more messages. -/
  | close (w : Workshop σ) : Step w { w with pool := w.pool.close }

/-- Any number of steps. -/
abbrev Run : Workshop σ → Workshop σ → Prop :=
  Relation.ReflTransGen Step

/-- The pool takes nothing, no message waits and no worker has one in hand: all workers have gone. -/
structure Drained (w : Workshop σ) : Prop where
  closed : w.pool.accepting = false
  empty : ∀ lane, w.pool.waiting lane = []
  idle : ∀ lane, w.hands lane = none

/-! ## What holds on a lane -/

/-- The messages that belong on a lane, where `place` is the lane of a sender. -/
def onLane (place : Address → Nat) (lane : Nat) (letters : List Letter) : List Letter :=
  letters.filter (place ·.sender == lane)

/-- The messages of a sender. -/
def heardFrom (a : Address) (letters : List Letter) : List Letter :=
  letters.filter (·.sender == a)

theorem onLane_append (place : Address → Nat) (lane : Nat) (ls ms : List Letter) :
    onLane place lane (ls ++ ms) = onLane place lane ls ++ onLane place lane ms :=
  List.filter_append ..

theorem heardFrom_append (a : Address) (ls ms : List Letter) :
    heardFrom a (ls ++ ms) = heardFrom a ls ++ heardFrom a ms :=
  List.filter_append ..

theorem onLane_singleton (place : Address → Nat) (lane : Nat) (l : Letter) :
    onLane place lane [l] = if place l.sender = lane then [l] else [] := by
  simp [onLane, List.filter_cons]

theorem place_of_mem_onLane {place : Address → Nat} {lane : Nat} {l : Letter} {ls : List Letter}
    (hl : l ∈ onLane place lane ls) : place l.sender = lane := by
  simpa [onLane] using (List.mem_filter.mp hl).2

/-- A sender is heard on its own lane. -/
theorem heardFrom_onLane (place : Address → Nat) (a : Address) (ls : List Letter) :
    heardFrom a (onLane place (place a) ls) = heardFrom a ls := by
  unfold heardFrom onLane
  rw [List.filter_filter]
  refine List.filter_congr ?_
  intro l _
  by_cases h : l.sender = a <;> simp [h]

/-- On each lane, what was queued was begun or waits, and what was begun has ended or is in hand. What
went wrong was written down. -/
structure Sound (place : Address → Nat) (w : Workshop σ) : Prop where
  placed : ∀ a, w.pool.laneFor a = place a
  exists_lane : ∀ a, place a < w.pool.lanes.length
  queued : ∀ lane, onLane place lane w.queued =
    onLane place lane w.begun ++ w.pool.waiting lane
  begun : ∀ lane, onLane place lane w.begun =
    onLane place lane w.handled ++ (w.hands lane).toList
  ended : w.pool.handled.map Prod.snd = w.handled
  errors : w.pool.errors = w.ended.filterMap fun e => e.2.notice? e.1

theorem sound_start (worker : σ → Letter → σ × Handled) (laneOf : Address → Nat) (state : σ)
    (threads : Nat) :
    (start worker laneOf state threads).Sound fun a => laneOf a % max threads 1 where
  placed a := by simp [start, Pool.laneFor, Pool.new]
  exists_lane a := by
    have hpos : 0 < max threads 1 := by omega
    simpa [start, Pool.new] using Nat.mod_lt (laneOf a) hpos
  queued lane := (Pool.waiting_new worker laneOf state threads lane).symm
  begun _ := rfl
  ended := rfl
  errors := rfl

theorem errors_append (p : Pool σ) (notices : List Notice) :
    ({ p with journal := p.journal ++ notices } : Pool σ).errors =
      p.errors ++ notices.filter (·.level == .error) :=
  List.filter_append ..

/-- Every notice about the handling of a message is an error. -/
theorem filter_notice? (o : Handled) (l : Letter) :
    (o.notice? l).toList.filter (·.level == .error) = (o.notice? l).toList := by
  cases o <;> rfl

namespace Sound

variable {place : Address → Nat} {w w' : Workshop σ}

theorem process (h : w.Sound place) (l : Letter) :
    Sound place { w with
      pool := w.pool.process l
      queued := w.queued ++ if w.pool.accepting then [l] else [] } := by
  cases hopen : w.pool.accepting with
  | false =>
    rw [Pool.process_of_closed hopen, if_neg Bool.false_ne_true, List.append_nil]
    refine ⟨h.placed, h.exists_lane, h.queued, h.begun, h.ended, ?_⟩
    rw [← h.errors, errors_append]
    exact List.append_nil _
  | true =>
    have hlane := h.placed l.sender
    have hlt : w.pool.laneFor l.sender < w.pool.lanes.length := hlane ▸ h.exists_lane l.sender
    have hlength : (w.pool.process l).lanes.length = w.pool.lanes.length := by
      simp [Pool.process, hopen]
    have hsame : w.pool.process l =
        { w.pool with lanes := (w.pool.process l).lanes } := by
      simp [Pool.process, hopen]
    refine ⟨?_, ?_, ?_, h.begun, ?_, ?_⟩
    · intro a
      rw [← h.placed a, Pool.laneFor, hlength, hsame]
      rfl
    · intro a
      exact hlength ▸ h.exists_lane a
    · intro lane
      show onLane place lane (w.queued ++ [l]) = _ ++ (w.pool.process l).waiting lane
      rw [onLane_append, onLane_singleton, Pool.waiting_process hopen hlt, h.queued, hlane,
        List.append_assoc]
    · rw [hsame]
      exact h.ended
    · rw [hsame]
      exact h.errors

theorem take (h : w.Sound place) {lane : Nat} {l : Letter} {rest : List Letter}
    (hwaiting : w.pool.waiting lane = l :: rest) (hidle : w.hands lane = none) :
    Sound place { w with
      pool := w.pool.setLane lane rest
      hands := Function.update w.hands lane (some l)
      begun := w.begun ++ [l] } := by
  have hlt : lane < w.pool.lanes.length :=
    Pool.lt_of_waiting (hwaiting ▸ List.cons_ne_nil l rest)
  have hplace : place l.sender = lane := by
    have hqueued : l ∈ onLane place lane w.queued := by
      rw [h.queued, hwaiting]
      exact List.mem_append_right _ List.mem_cons_self
    exact place_of_mem_onLane hqueued
  have hlength : (w.pool.setLane lane rest).lanes.length = w.pool.lanes.length :=
    List.length_set
  refine ⟨?_, ?_, ?_, ?_, h.ended, h.errors⟩
  · intro a
    rw [← h.placed a, Pool.laneFor, hlength]
    rfl
  · intro a
    exact hlength ▸ h.exists_lane a
  · intro i
    show onLane place i w.queued =
      onLane place i (w.begun ++ [l]) ++ (w.pool.setLane lane rest).waiting i
    rw [onLane_append, onLane_singleton, Pool.waiting_setLane hlt, h.queued, hplace]
    by_cases hi : i = lane
    · rw [if_pos hi, if_pos hi.symm, hi, hwaiting]
      exact List.append_cons _ _ _
    · rw [if_neg hi, if_neg (Ne.symm hi), List.append_nil]
  · intro i
    show onLane place i (w.begun ++ [l]) =
      onLane place i w.handled ++ (Function.update w.hands lane (some l) i).toList
    rw [onLane_append, onLane_singleton, h.begun, hplace]
    by_cases hi : i = lane
    · rw [if_pos hi.symm, hi, hidle, Function.update_self]
      simp
    · rw [if_neg (Ne.symm hi), Function.update_of_ne hi, List.append_nil]

theorem settle (h : w.Sound place) {lane : Nat} {l : Letter} (hhand : w.hands lane = some l) :
    Sound place { w with
      pool := w.pool.settle lane l
      hands := Function.update w.hands lane none
      ended := w.ended ++ [(l, (w.pool.worker w.pool.state l).2)] } := by
  have hplace : place l.sender = lane := by
    have hbegun : l ∈ onLane place lane w.begun := by
      rw [h.begun, hhand]
      simp
    exact place_of_mem_onLane hbegun
  refine ⟨h.placed, h.exists_lane, h.queued, ?_, ?_, ?_⟩
  · intro i
    show onLane place i w.begun = onLane place i ((w.ended ++ [(l, _)]).map Prod.fst) ++
      (Function.update w.hands lane none i).toList
    rw [List.map_append, List.map_singleton, onLane_append, onLane_singleton, h.begun, hplace]
    by_cases hi : i = lane
    · rw [if_pos hi.symm, hi, hhand, Function.update_self]
      exact (List.append_nil _).symm
    · rw [if_neg (Ne.symm hi), Function.update_of_ne hi, List.append_nil]
      rfl
  · show (w.pool.handled ++ [(lane, l)]).map Prod.snd = (w.ended ++ [(l, _)]).map Prod.fst
    rw [List.map_append, List.map_append, h.ended]
    rfl
  · show (w.pool.journal ++ ((w.pool.worker w.pool.state l).2.notice? l).toList).filter _ = _
    rw [List.filter_append, filter_notice?, List.filterMap_append, ← h.errors]
    rfl

/-- Whatever happens, each lane stays in order. -/
theorem step (h : w.Sound place) (hstep : Step w w') : w'.Sound place := by
  cases hstep with
  | process l => exact h.process l
  | take _ hwaiting hidle => exact h.take hwaiting hidle
  | settle _ hhand => exact h.settle hhand
  | close => exact ⟨h.placed, h.exists_lane, h.queued, h.begun, h.ended, h.errors⟩

theorem run (h : w.Sound place) (hrun : Run w w') : w'.Sound place := by
  induction hrun with
  | refl => exact h
  | tail _ hstep ih => exact ih.step hstep

/-! ## What holds for a sender -/

/-- What a sender has queued was begun, or waits on its lane. -/
theorem queued_from (h : w.Sound place) (a : Address) :
    heardFrom a w.queued = heardFrom a w.begun ++ heardFrom a (w.pool.waiting (place a)) := by
  rw [← heardFrom_onLane place a w.queued, h.queued, heardFrom_append, heardFrom_onLane]

/-- What was begun for a sender has ended, or is in the hands of its worker. -/
theorem begun_from (h : w.Sound place) (a : Address) :
    heardFrom a w.begun =
      heardFrom a w.handled ++ heardFrom a (w.hands (place a)).toList := by
  rw [← heardFrom_onLane place a w.begun, h.begun, heardFrom_append, heardFrom_onLane]

/-- A worker has something in hand only if there is a lane for it. -/
theorem hands_of_le (h : w.Sound place) {lane : Nat} (hle : w.pool.lanes.length ≤ lane) :
    w.hands lane = none := by
  cases hhand : w.hands lane with
  | none => rfl
  | some l =>
    have hl : l ∈ onLane place lane w.begun := by
      rw [h.begun, hhand]
      simp
    have hlt := h.exists_lane l.sender
    rw [place_of_mem_onLane hl] at hlt
    omega

end Sound

/-! ## Shutting down -/

/-- Workers put down what they have in hand. -/
theorem exists_settled (w : Workshop σ) (lanes : List Nat) :
    ∃ w', Run w w' ∧ w'.queued = w.queued ∧ (∀ lane ∈ lanes, w'.hands lane = none) ∧
      ∀ lane, w.hands lane = none → w'.hands lane = none := by
  induction lanes generalizing w with
  | nil => exact ⟨w, .refl, rfl, nofun, fun _ h => h⟩
  | cons lane lanes ih =>
    cases hhand : w.hands lane with
    | none =>
      obtain ⟨w', hrun, hqueued, hidle, hkeep⟩ := ih w
      refine ⟨w', hrun, hqueued, ?_, hkeep⟩
      intro i hi
      rcases List.mem_cons.mp hi with rfl | hi
      · exact hkeep i hhand
      · exact hidle i hi
    | some l =>
      have hstep := Step.settle lane hhand
      obtain ⟨w', hrun, hqueued, hidle, hkeep⟩ := ih { w with
        pool := w.pool.settle lane l
        hands := Function.update w.hands lane none
        ended := w.ended ++ [(l, (w.pool.worker w.pool.state l).2)] }
      refine ⟨w', .head hstep hrun, hqueued, ?_, ?_⟩
      · intro i hi
        rcases List.mem_cons.mp hi with rfl | hi
        · exact hkeep i (Function.update_self ..)
        · exact hidle i hi
      · intro i hi
        refine hkeep i ?_
        by_cases hlane : i = lane
        · rw [hlane]
          exact Function.update_self ..
        · exact (Function.update_of_ne hlane ..).trans hi

/-- A step of a lane is made of what its worker does. -/
theorem exists_step (w : Workshop σ) {lane : Nat} (hidle : w.hands lane = none) :
    ∃ w', Run w w' ∧ w'.pool = w.pool.step lane ∧ w'.hands = w.hands ∧
      w'.queued = w.queued := by
  cases hwaiting : w.pool.waiting lane with
  | nil => exact ⟨w, .refl, (Pool.step_of_empty hwaiting).symm, rfl, rfl⟩
  | cons l rest =>
    have htake : Run w _ := .single (.take lane hwaiting hidle)
    have hrun := htake.tail (.settle lane (l := l) (Function.update_self ..))
    refine ⟨_, hrun, (Pool.step_of_waiting hwaiting).symm, ?_, rfl⟩
    show Function.update (Function.update w.hands lane (some l)) lane none = w.hands
    rw [Function.update_idem, ← hidle, Function.update_eq_self]

theorem exists_runLane (w : Workshop σ) {lane : Nat} (hidle : w.hands lane = none) (n : Nat) :
    ∃ w', Run w w' ∧ w'.pool = w.pool.runLane lane n ∧ w'.hands = w.hands ∧
      w'.queued = w.queued := by
  induction n generalizing w with
  | zero => exact ⟨w, .refl, rfl, rfl, rfl⟩
  | succ n ih =>
    obtain ⟨w₁, hrun₁, hpool₁, hhands₁, hqueued₁⟩ := w.exists_step hidle
    obtain ⟨w₂, hrun₂, hpool₂, hhands₂, hqueued₂⟩ := ih w₁ (hhands₁ ▸ hidle)
    refine ⟨w₂, hrun₁.trans hrun₂, ?_, hhands₂.trans hhands₁, hqueued₂.trans hqueued₁⟩
    rw [hpool₂, hpool₁]
    rfl

theorem exists_emptyLanes (w : Workshop σ) (hidle : ∀ lane, w.hands lane = none)
    (lanes : List Nat) :
    ∃ w', Run w w' ∧ w'.pool = lanes.foldl Pool.emptyLane w.pool ∧ w'.hands = w.hands ∧
      w'.queued = w.queued := by
  induction lanes generalizing w with
  | nil => exact ⟨w, .refl, rfl, rfl, rfl⟩
  | cons lane lanes ih =>
    obtain ⟨w₁, hrun₁, hpool₁, hhands₁, hqueued₁⟩ :=
      w.exists_runLane (hidle lane) (w.pool.waiting lane).length
    obtain ⟨w₂, hrun₂, hpool₂, hhands₂, hqueued₂⟩ := ih w₁ (hhands₁ ▸ hidle)
    refine ⟨w₂, hrun₁.trans hrun₂, ?_, hhands₂.trans hhands₁, hqueued₂.trans hqueued₁⟩
    rw [hpool₂, hpool₁]
    rfl

/-- A pool whose workers have nothing in hand can be shut down. -/
theorem exists_finished (w : Workshop σ) (hidle : ∀ lane, w.hands lane = none) :
    ∃ w', Run w w' ∧ w'.pool = w.pool.shutdown ∧ Drained w' ∧ w'.queued = w.queued := by
  obtain ⟨w', hrun, hpool, hhands, hqueued⟩ :=
    exists_emptyLanes { w with pool := w.pool.close } hidle (List.range w.pool.lanes.length)
  have hshut : w'.pool = w.pool.shutdown := by
    rw [hpool, Pool.shutdown, Pool.finish_eq]
    rfl
  refine ⟨w', .head (.close w) hrun, hshut, ⟨?_, ?_, ?_⟩, hqueued⟩
  · rw [hshut]
    exact Pool.accepting_shutdown w.pool
  · intro lane
    rw [hshut]
    exact Pool.waiting_finish w.pool.close lane
  · intro lane
    exact hhands ▸ hidle lane

/-- A pool can be shut down at any moment. -/
theorem Sound.exists_shutdown {place : Address → Nat} {w : Workshop σ} (h : w.Sound place) :
    ∃ w', Run w w' ∧ Drained w' ∧ w'.queued = w.queued := by
  obtain ⟨w₁, hrun₁, hqueued₁, hsettled, hkeep⟩ :=
    w.exists_settled (List.range w.pool.lanes.length)
  have hidle : ∀ lane, w₁.hands lane = none := by
    intro lane
    by_cases hlt : lane < w.pool.lanes.length
    · exact hsettled lane (List.mem_range.mpr hlt)
    · exact hkeep lane (h.hands_of_le (Nat.not_lt.mp hlt))
  obtain ⟨w₂, hrun₂, -, hdrained, hqueued₂⟩ := w₁.exists_finished hidle
  exact ⟨w₂, hrun₁.trans hrun₂, hdrained, hqueued₂.trans hqueued₁⟩

/-! ## Order -/

/-- At every moment the messages of a sender whose handling has begun are the first of those that
were queued, in their order, and those whose handling is over are the first of these. One error was
written down for each handling that failed or broke off, in the order in which they ended. Once the
pool is shut down all that was queued was handled; and it can be shut down at any moment. -/
theorem handled_in_order {worker : σ → Letter → σ × Handled} {laneOf : Address → Nat} {state : σ}
    {threads : Nat} {w : Workshop σ} (hrun : Run (start worker laneOf state threads) w) :
    (∀ a, heardFrom a w.begun <+: heardFrom a w.queued ∧
      heardFrom a w.handled <+: heardFrom a w.begun) ∧
    w.pool.handled.map Prod.snd = w.handled ∧
    w.pool.errors = w.ended.filterMap (fun e => e.2.notice? e.1) ∧
    w.pool.errors.length = w.ended.countP (·.2 != .ok) ∧
    (Drained w → ∀ a, heardFrom a w.begun = heardFrom a w.queued ∧
      heardFrom a w.handled = heardFrom a w.queued) ∧
    ∃ w', Run w w' ∧ Drained w' ∧ w'.queued = w.queued := by
  have h := (sound_start worker laneOf state threads).run hrun
  refine ⟨?_, h.ended, h.errors, ?_, ?_, h.exists_shutdown⟩
  · intro a
    exact ⟨⟨_, (h.queued_from a).symm⟩, ⟨_, (h.begun_from a).symm⟩⟩
  · rw [h.errors, List.length_filterMap_eq_countP]
    refine List.countP_congr ?_
    rintro ⟨l, outcome⟩ -
    cases outcome <;> simp [Handled.notice?]
  · intro hdrained a
    have hqueued := h.queued_from a
    have hbegun := h.begun_from a
    rw [hdrained.empty] at hqueued
    rw [hdrained.idle] at hbegun
    have hall : heardFrom a w.queued = heardFrom a w.begun := hqueued.trans (List.append_nil _)
    have hover : heardFrom a w.begun = heardFrom a w.handled := hbegun.trans (List.append_nil _)
    exact ⟨hall.symm, (hall.trans hover).symm⟩

/-! ## Two senders, and a pool that is shut down while they are heard -/

/-- Someone who is heard on the first of two lanes. -/
def even : Address :=
  .ipv4 10 0 0 1 1000

/-- Someone who is heard on the second. -/
def odd : Address :=
  .ipv4 10 0 0 1 1001

def note (sender : Address) (n : UInt8) : Letter :=
  ⟨sender, .echo (.new [n])⟩

/-- A worker that counts what it handles. Some messages fail, and some make it break off. -/
def clerk (count : Nat) (l : Letter) : Nat × Handled :=
  (count + 1, match l.message with
    | .echo ⟨_, _, [0]⟩ => .broke none
    | .echo ⟨_, _, [1]⟩ => .failed .timedOut
    | _ => .ok)

/-- The second message breaks off while the first is still in hand, the pool is shut down with the
third one waiting, and a fourth comes too late. -/
theorem exists_drained : ∃ w, Run (start clerk (·.port.toNat) 0 2) w ∧ Drained w ∧
    w.queued = [note even 2, note odd 0, note even 1] ∧
    w.ended.map Prod.snd = [.broke none, .ok, .failed .timedOut] := by
  have run : Run (start clerk (·.port.toNat) 0 2) _ := .single (.process _ (note even 2))
  have run := run.tail (.process _ (note odd 0))
  have run := run.tail (.process _ (note even 1))
  have run := run.tail (.take 0 (l := note even 2) rfl rfl)
  have run := run.tail (.take 1 (l := note odd 0) rfl rfl)
  have run := run.tail (.settle 1 (l := note odd 0) rfl)
  have run := run.tail (.close _)
  have run := run.tail (.process _ (note odd 3))
  have run := run.tail (.settle 0 (l := note even 2) rfl)
  have run := run.tail (.take 0 (l := note even 1) rfl rfl)
  have run := run.tail (.settle 0 (l := note even 1) rfl)
  refine ⟨_, run, ⟨rfl, ?_, ?_⟩, rfl, rfl⟩
  · intro lane
    match lane with
    | 0 | 1 => rfl
    | lane + 2 => rfl
  · intro lane
    match lane with
    | 0 | 1 => rfl
    | lane + 2 => rfl

/-- Each of the two is heard in its order, and two errors are written down. -/
theorem both_are_heard : ∃ w, Run (start clerk (·.port.toNat) 0 2) w ∧ Drained w ∧
    heardFrom even w.handled = [note even 2, note even 1] ∧
    heardFrom odd w.handled = [note odd 0] ∧ w.pool.errors.length = 2 := by
  obtain ⟨w, hrun, hdrained, hqueued, hended⟩ := exists_drained
  obtain ⟨-, -, -, herrors, hall, -⟩ := handled_in_order hrun
  have hcount : w.ended.countP (·.2 != .ok) = (w.ended.map Prod.snd).countP (· != .ok) := by
    rw [List.countP_map]
    rfl
  refine ⟨w, hrun, hdrained, ?_, ?_, ?_⟩
  · rw [(hall hdrained even).2, hqueued]
    decide
  · rw [(hall hdrained odd).2, hqueued]
    decide
  · rw [herrors, hcount, hended]
    decide

end Workshop

end Parley
