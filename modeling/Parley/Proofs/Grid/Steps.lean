import Parley.Grid.Coordinator

/-!
# Runs of a coordinator

A coordinator is asked for jobs, told to look for stale ones, and brought messages, in any order.
This file says once what one such call can do, so that invariants of whole runs need not look into
the operations again.

* `Call`, `perform` — what is asked of a coordinator, and the coordinator afterwards;
* `Sight`, `sight` — what can be seen of a call from outside: the job that it hands out, a result
  that it brings for a job that is out, the event that it causes;
* `Step`, `step_perform` — everything that one call can do;
* `Run`, `run_sights` — any number of calls is a row of steps.
-/

namespace Parley

/-- The job that an event is about. -/
def JobEvent.job : JobEvent → JobId
  | .reported job _ _ => job
  | .givenUp job => job

namespace Coordinator

variable {γ : Type}

/-- What is asked of a coordinator. A message comes with the network as it is then, so that replies
may fail in every way. -/
inductive Call
  | next (now : Nat)
  | requeue (now : Nat)
  | message (site : Site) (now : Nat) (worker : Address) (m : Message)

/-- A result that a worker reports for a job. -/
structure Finding where
  job : JobId
  correct : Bool
  data : Option Bytes
deriving DecidableEq, Repr

namespace Call

/-- When a job is asked for, if one is. -/
def demand? : Call → Option Nat
  | next now => some now
  | message _ now _ (.grid m) => if m.kind = .newData then some now else none
  | _ => none

/-- The result that a message reports, if it does. -/
def finding? : Call → Option Finding
  | message _ _ _ (.grid m) =>
    match m.kind with
    | .compSuccessful => some ⟨m.jobId, true, m.data⟩
    | .compIncorrect => some ⟨m.jobId, false, m.data⟩
    | _ => none
  | _ => none

end Call

/-- The coordinator after a call. -/
def perform (c : Coordinator γ) : Call → Coordinator γ
  | .next now => (c.nextJob now).2
  | .requeue now => (c.requeueStale now).2
  | .message site now worker m => (c.handle site now worker m).coordinator

/-- What can be seen of a call. -/
structure Sight where
  /-- The job that is handed out. -/
  handed : Option Job
  /-- Whether that job is a new one, for want of jobs that wait to be handed out again. -/
  isNew : Bool
  /-- A result for a job that is out. -/
  finding : Option Finding
  event : Option JobEvent
deriving DecidableEq, Repr

namespace Sight

/-- Nothing is seen. -/
def nothing : Sight := ⟨none, false, none, none⟩

/-- A job is handed out. -/
def handing (j : Job) (isNew : Bool) : Sight := ⟨some j, isNew, none, none⟩

end Sight

/-- What is seen of a call. -/
def sight (c : Coordinator γ) (call : Call) : Sight where
  handed := call.demand?.map fun now => (c.nextJob now).1
  isNew := call.demand?.isSome && (c.takeResend c.resend).isNone
  finding := call.finding?.filter fun r => (c.job? r.job).isSome
  event :=
    match call with
    | .message site now worker m => (c.handle site now worker m).event
    | _ => none

/-- Everything that one call can do. -/
inductive Step (c : Coordinator γ) : Sight → Coordinator γ → Prop
  /-- Nothing happens. -/
  | quiet : Step c .nothing c
  /-- Stale jobs are queued. -/
  | requeued (now : Nat) : Step c .nothing (c.requeueStale now).2
  /-- A job failed that may be tried again. -/
  | failed {id : JobId} {j : Job} (out : c.job? id = some j)
      (tries : j.attempts < c.config.maxAttempts) (absent : id ∉ c.resend) :
      Step c .nothing { c with resend := c.resend ++ [id] }
  /-- A job is handed out again. -/
  | again {j : Job} {rest : List JobId} (now : Nat)
      (found : c.takeResend c.resend = some (j, rest)) :
      Step c (.handing (j.handOut now) false) ({ c with resend := rest }.putJob (j.handOut now))
  /-- A new job is handed out. -/
  | fresh (now : Nat) (empty : c.takeResend c.resend = none) :
      Step c (.handing (c.generate now).1 true) (c.generate now).2
  /-- A result comes for a job that is out. -/
  | reported {r : Finding} {j : Job} (out : c.job? r.job = some j) :
      Step c ⟨none, false, some r, some (.reported r.job r.correct r.data)⟩ (c.retire r.job)
  /-- A job failed too often. -/
  | givenUp {id : JobId} {j : Job} (out : c.job? id = some j)
      (tries : c.config.maxAttempts ≤ j.attempts) :
      Step c ⟨none, false, none, some (.givenUp id)⟩ (c.retire id)

/-! ## Every call is a step -/

@[simp] theorem tell_coordinator (c : Coordinator γ) (site : Site) (worker : Address)
    (m : GridMessage) : (c.tell site worker m).coordinator = c := by
  unfold tell
  split <;> rfl

@[simp] theorem tell_event (c : Coordinator γ) (site : Site) (worker : Address)
    (m : GridMessage) : (c.tell site worker m).event = none := by
  unfold tell
  split <;> rfl

/-- Asking for a job hands out one that waits, or else a new one. -/
theorem step_nextJob (c : Coordinator γ) (now : Nat) :
    Step c (.handing (c.nextJob now).1 (c.takeResend c.resend).isNone) (c.nextJob now).2 := by
  unfold nextJob
  cases hf : c.takeResend c.resend with
  | some found => exact .again now hf
  | none => exact .fresh now hf

/-- A result retires its job, if the job is out. -/
theorem step_jobResult (c : Coordinator γ) (r : Finding) :
    Step c ⟨none, false, (some r).filter fun r => (c.job? r.job).isSome,
        (c.jobResult r.job r.correct r.data).2⟩ (c.jobResult r.job r.correct r.data).1 := by
  unfold jobResult
  cases hj : c.job? r.job with
  | none => simpa [Option.filter, hj, Sight.nothing] using Step.quiet (c := c)
  | some j => simpa [Option.filter, hj] using Step.reported hj

/-- A failure queues its job, gives it up, or changes nothing. -/
theorem step_jobError (c : Coordinator γ) (site : Site) (id : JobId) :
    Step c ⟨none, false, none, (c.jobError site id).2.2⟩ (c.jobError site id).1 := by
  unfold jobError
  cases hj : c.job? id with
  | none => exact .quiet
  | some j =>
    dsimp only
    by_cases htries : c.config.maxAttempts ≤ j.attempts
    · rw [if_pos htries]
      exact .givenUp hj htries
    · rw [if_neg htries]
      by_cases hwaits : c.resend.contains id = true
      · rw [if_pos hwaits]
        exact .quiet
      · rw [if_neg hwaits]
        exact .failed hj (UInt32.not_le.mp htries) (by simpa using hwaits)

/-- Every call is a step. -/
theorem step_perform (c : Coordinator γ) (call : Call) :
    Step c (c.sight call) (c.perform call) := by
  cases call with
  | next now =>
    simpa [sight, perform, Call.demand?, Call.finding?, Sight.handing] using c.step_nextJob now
  | requeue now => exact .requeued now
  | message site now worker m =>
    cases m with
    | grid m =>
      obtain ⟨kind, id, data⟩ := m
      cases kind with
      | newData =>
        simpa [sight, perform, Call.demand?, Call.finding?, Sight.handing] using
          c.step_nextJob now
      | compSuccessful => exact c.step_jobResult ⟨id, true, data⟩
      | compIncorrect => exact c.step_jobResult ⟨id, false, data⟩
      | compError => exact c.step_jobError site id
      | register =>
        simpa [sight, perform, Call.demand?, Call.finding?, Sight.nothing] using
          Step.quiet (c := c)
      | unregister => exact .quiet
      | initData => exact .quiet
      | compData => exact .quiet
    | keepAlive => exact .quiet
    | echo body => exact .quiet
    | reply body => exact .quiet
    | chat body => exact .quiet
    | sync body => exact .quiet
    | user body => exact .quiet

/-- An event that reports a result tells what a message reported. -/
theorem finding?_of_reported {c : Coordinator γ} {call : Call} {id : JobId} {correct : Bool}
    {data : Option Bytes} (h : (c.sight call).event = some (.reported id correct data)) :
    call.finding? = some ⟨id, correct, data⟩ := by
  have hfinding : (c.sight call).finding = some ⟨id, correct, data⟩ := by
    have hs := c.step_perform call
    generalize c.sight call = s, c.perform call = c' at h hs
    cases hs with
    | reported out =>
      cases h
      rfl
    | _ => cases h
  exact (Option.filter_eq_some_iff.mp hfinding).1

/-! ## Runs -/

/-- The coordinator after calls one after another. -/
def after (c : Coordinator γ) (calls : List Call) : Coordinator γ :=
  calls.foldl perform c

/-- What is seen of calls one after another. -/
def sights (c : Coordinator γ) : List Call → List Sight
  | [] => []
  | call :: rest => c.sight call :: (c.perform call).sights rest

theorem sights_append (c : Coordinator γ) (xs ys : List Call) :
    c.sights (xs ++ ys) = c.sights xs ++ (c.after xs).sights ys := by
  induction xs generalizing c with
  | nil => rfl
  | cons call xs ih => simpa [sights, after] using ih (c.perform call)

/-- A row of steps, with what is seen of them. -/
inductive Run (c₀ : Coordinator γ) : List Sight → Coordinator γ → Prop
  | nil : Run c₀ [] c₀
  | snoc {ss : List Sight} {s : Sight} {c c' : Coordinator γ} :
      Run c₀ ss c → Step c s c' → Run c₀ (ss ++ [s]) c'

/-- A run can go on from where another ends. -/
theorem Run.append {c₀ c c' : Coordinator γ} {ss ss' : List Sight} (h : Run c₀ ss c)
    (h' : Run c ss' c') : Run c₀ (ss ++ ss') c' := by
  induction h' with
  | nil => simpa using h
  | snoc _ hs ih => simpa using ih.snoc hs

/-- Calls one after another are a run. -/
theorem run_sights (c : Coordinator γ) (calls : List Call) :
    Run c (c.sights calls) (c.after calls) := by
  induction calls generalizing c with
  | nil => exact .nil
  | cons call rest ih =>
    have first : Run c [c.sight call] (c.perform call) := Run.nil.snoc (c.step_perform call)
    exact first.append (ih (c.perform call))

/-- The settings stay. -/
theorem Step.config_eq {c c' : Coordinator γ} {s : Sight} (hs : Step c s c') :
    c'.config = c.config := by
  cases hs <;> rfl

/-- So does the source of jobs. -/
theorem Step.source_eq {c c' : Coordinator γ} {s : Sight} (hs : Step c s c') :
    c'.source = c.source := by
  cases hs <;> rfl

theorem Run.config_eq {c₀ c : Coordinator γ} {ss : List Sight} (hr : Run c₀ ss c) :
    c.config = c₀.config := by
  induction hr with
  | nil => rfl
  | snoc _ hs ih => exact hs.config_eq.trans ih

/-! ## The queue of jobs to be handed out again -/

/-- What is taken out of the queue is its first job that is still out. -/
theorem takeResend_eq_some {c : Coordinator γ} {queue rest : List JobId} {j : Job}
    (h : c.takeResend queue = some (j, rest)) :
    ∃ retired, queue = retired ++ j.id :: rest ∧ c.job? j.id = some j ∧
      ∀ id ∈ retired, c.job? id = none := by
  induction queue with
  | nil => simp [takeResend] at h
  | cons id queue ih =>
    unfold takeResend at h
    cases hj : c.job? id with
    | none =>
      simp only [hj] at h
      obtain ⟨retired, rfl, hout, hnone⟩ := ih h
      refine ⟨id :: retired, rfl, hout, ?_⟩
      intro other hmem
      rcases List.mem_cons.mp hmem with rfl | hmem
      · exact hj
      · exact hnone other hmem
    | some found =>
      simp only [hj, Option.some.injEq, Prod.mk.injEq] at h
      obtain ⟨rfl, rfl⟩ := h
      have hid : found.id = id := by
        simpa using List.find?_some hj
      subst hid
      exact ⟨[], rfl, hj, by simp⟩

/-- Handing a job out again leaves the same jobs out. -/
theorem isSome_job?_putJob {c : Coordinator γ} {j : Job} (h : (c.job? j.id).isSome) (id : JobId) :
    ((c.putJob j).job? id).isSome = (c.job? id).isSome := by
  by_cases hid : id = j.id
  · subst hid
    simp [h]
  · rw [c.job?_putJob_of_ne j hid]

@[simp] theorem id_generate (c : Coordinator γ) (now : Nat) : (c.generate now).1.id = c.nextId := rfl

/-- A new job is out, beside those that were. -/
theorem job?_generate (c : Coordinator γ) (now : Nat) (id : JobId) :
    (c.generate now).2.job? id = if id = c.nextId then some (c.generate now).1 else c.job? id := by
  unfold generate
  dsimp only
  by_cases hid : id = c.nextId
  · subst hid
    rw [if_pos rfl]
    exact job?_putJob_self _ _
  · rw [if_neg hid]
    exact job?_putJob_of_ne _ _ hid

end Coordinator

end Parley
