import Mathlib.Data.List.Induction
import Parley.Proofs.Grid.Accounting
import Parley.Proofs.Grid.Queue

/-!
# How often a job is handed out

A job keeps count of its attempts. As long as there are ids left and no count comes round, the count
is the number of times that the job was handed out in the run (`Attempted`). A job that fails waits
once more, or is given up if it was handed out often enough; if no job is ever out too long, the
limit bounds how often any job is handed out (`Limited`).

* `Attempted.step`, `Run.attempted` — one step and a whole run keep the count;
* `event_givenUp`, `event_of_failure` — what a failure of a job does;
* `Limited.step`, `limited_after` — the limit, while no job is out too long;
* `attempts_end_at_limit` — all of these.
-/

namespace Parley

namespace Coordinator

variable {γ : Type}

/-! ## Counting -/

/-- The jobs that were handed out, the oldest first. -/
def handed (ss : List Sight) : List JobId :=
  ss.filterMap fun s => s.handed.map (·.id)

/-- How often a job was handed out. -/
def handOuts (ss : List Sight) (id : JobId) : Nat :=
  (handed ss).count id

theorem handOuts_snoc (ss : List Sight) (s : Sight) (id : JobId) :
    handOuts (ss ++ [s]) id = handOuts ss id + (s.handed.map (·.id)).toList.count id := by
  cases h : s.handed <;> simp [handOuts, handed, h]

theorem handOuts_snoc_of_none {s : Sight} (ss : List Sight) (h : s.handed = none) (id : JobId) :
    handOuts (ss ++ [s]) id = handOuts ss id := by
  simp [handOuts_snoc, h]

theorem handOuts_snoc_handing (ss : List Sight) (j : Job) (isNew : Bool) (id : JobId) :
    handOuts (ss ++ [.handing j isNew]) id = handOuts ss id + if j.id = id then 1 else 0 := by
  simp [handOuts_snoc, Sight.handing, List.count_singleton]

theorem handOuts_le_snoc (ss : List Sight) (s : Sight) (id : JobId) :
    handOuts ss id ≤ handOuts (ss ++ [s]) id := by
  rw [handOuts_snoc]
  exact Nat.le_add_right _ _

/-- Jobs that are out know how often they were handed out, and jobs that were never made were
not. -/
structure Attempted (c : Coordinator γ) (ss : List Sight) : Prop where
  out : ∀ id j, c.job? id = some j → j.attempts.toNat = handOuts ss id
  unknown : ∀ id, id ∉ generated ss → handOuts ss id = 0

theorem attempted_new (config : GridConfig) (source : JobSource γ) (g : γ) :
    Attempted (new config source g) [] where
  out := fun id j h => by simp [new, job?] at h
  unknown := fun _ _ => rfl

/-- A step that hands out nothing and brings no job among those that are out. -/
theorem Attempted.of_same {c c' : Coordinator γ} {ss : List Sight} {s : Sight}
    (h : Attempted c ss) (hnew : s.isNew = false) (hhanded : s.handed = none)
    (hout : ∀ id j, c'.job? id = some j → c.job? id = some j) : Attempted c' (ss ++ [s]) := by
  refine ⟨?_, ?_⟩
  · intro id j hj
    rw [handOuts_snoc_of_none ss hhanded]
    exact h.out id j (hout id j hj)
  · intro id hid
    rw [generated_snoc_of_not_new ss hnew] at hid
    rw [handOuts_snoc_of_none ss hhanded]
    exact h.unknown id hid

theorem job?_of_job?_retire {c : Coordinator γ} {id other : JobId} {j : Job}
    (h : (c.retire id).job? other = some j) : c.job? other = some j := by
  by_cases hne : other = id
  · simp [hne] at h
  · rwa [c.job?_retire_of_ne hne] at h

/-- One more attempt, if the count does not come round. -/
theorem toNat_handOut_attempts {j : Job} {n : Nat} (h : j.attempts.toNat = n)
    (few : n + 1 < idCount) (now : Nat) : (j.handOut now).attempts.toNat = n + 1 := by
  show (j.attempts + 1).toNat = n + 1
  rw [UInt32.toNat_add, h]
  exact Nat.mod_eq_of_lt few

/-- One step keeps the count, as long as there are ids left and no count comes round. -/
theorem Attempted.step {c c' : Coordinator γ} {ss : List Sight} {s : Sight}
    (h : Attempted c ss) (ha : Accounted c ss) (hs : Step c s c')
    (few : (generated (ss ++ [s])).length ≤ idCount)
    (rare : ∀ id, handOuts (ss ++ [s]) id < idCount) : Attempted c' (ss ++ [s]) := by
  cases hs with
  | quiet => exact h.of_same rfl rfl fun _ _ hj => hj
  | requeued now => exact h.of_same rfl rfl fun _ _ hj => hj
  | failed out tries absent => exact h.of_same rfl rfl fun _ _ hj => hj
  | reported out => exact h.of_same rfl rfl fun _ _ => job?_of_job?_retire
  | givenUp out tries => exact h.of_same rfl rfl fun _ _ => job?_of_job?_retire
  | @again j rest now found =>
    obtain ⟨_, _, hout, _⟩ := takeResend_eq_some found
    have hknown : j.id ∈ generated ss := (ha.out j.id (by simp [hout])).1
    refine ⟨?_, ?_⟩
    · intro id j' hj'
      rw [handOuts_snoc_handing, Job.id_handOut]
      by_cases hid : id = j.id
      · subst hid
        have hself := job?_putJob_self { c with resend := rest } (j.handOut now)
        cases hself.symm.trans hj'
        have hcount := rare j.id
        rw [handOuts_snoc_handing, Job.id_handOut, if_pos rfl] at hcount
        rw [if_pos rfl]
        exact toNat_handOut_attempts (h.out j.id j hout) hcount now
      · rw [job?_putJob_of_ne _ (j.handOut now) hid] at hj'
        rw [if_neg (Ne.symm hid)]
        exact h.out id j' hj'
    · intro id hid
      rw [generated_snoc_of_not_new ss rfl] at hid
      have hne : j.id ≠ id := by
        rintro rfl
        exact hid hknown
      rw [handOuts_snoc_handing, Job.id_handOut, if_neg hne]
      exact h.unknown id hid
  | fresh now empty =>
    have hlt : (generated ss).length < idCount := by
      rw [generated_snoc, List.length_append] at few
      exact few
    have hnew := ha.nextId_not_mem hlt
    refine ⟨?_, ?_⟩
    · intro id j' hj'
      rw [handOuts_snoc_handing, id_generate]
      rw [c.job?_generate now] at hj'
      by_cases hid : id = c.nextId
      · -- the id is new, so this is the first time that it is handed out
        subst hid
        rw [if_pos rfl] at hj'
        cases hj'
        rw [if_pos rfl, h.unknown c.nextId hnew]
        rfl
      · rw [if_neg hid] at hj'
        rw [if_neg (Ne.symm hid)]
        exact h.out id j' hj'
    · intro id hid
      rw [generated_snoc_fresh, List.mem_append, List.mem_singleton, not_or] at hid
      rw [handOuts_snoc_handing, id_generate, if_neg (Ne.symm hid.2)]
      exact h.unknown id hid.1

/-- A whole run keeps the count. -/
theorem Run.attempted {c₀ c : Coordinator γ} {ss₀ ss : List Sight} (hr : Run c₀ ss c)
    (h : Attempted c₀ ss₀) (ha : Accounted c₀ ss₀)
    (few : (generated (ss₀ ++ ss)).length ≤ idCount)
    (rare : ∀ id, handOuts (ss₀ ++ ss) id < idCount) : Attempted c (ss₀ ++ ss) := by
  induction hr with
  | nil => simpa using h
  | @snoc ss s c c' hr hs ih =>
    rw [← List.append_assoc] at few rare ⊢
    have fewBefore := Nat.le_trans (length_generated_le_snoc _ s) few
    have rareBefore : ∀ id, handOuts (ss₀ ++ ss) id < idCount := by
      intro id
      exact Nat.lt_of_le_of_lt (handOuts_le_snoc _ s id) (rare id)
    exact (ih fewBefore rareBefore).step (hr.accounted ha fewBefore) hs few rare

/-! ## Failures -/

/-- The job that a message reports to have failed, if it does. -/
def Call.failure? : Call → Option JobId
  | .message _ _ _ (.grid m) => if m.kind = .compError then some m.jobId else none
  | _ => none

/-- A job is given up when it has failed, is out, and was handed out often enough. -/
theorem event_givenUp {c : Coordinator γ} {call : Call} {id : JobId}
    (h : (c.sight call).event = some (.givenUp id)) :
    call.failure? = some id ∧
      ∃ j, c.job? id = some j ∧ c.config.maxAttempts ≤ j.attempts := by
  refine ⟨?_, ?_⟩
  · cases call with
    | next now => cases h
    | requeue now => cases h
    | message site now worker m =>
      cases m with
      | grid m =>
        obtain ⟨kind, job, data⟩ := m
        cases kind with
        | compError =>
          have hid : job = id := by
            simp only [sight, handle, reply?, takeReport, jobError] at h
            split at h
            · cases h
            · split at h
              · cases h
                rfl
              · split at h <;> cases h
          rw [hid]
          rfl
        | compSuccessful =>
          simp only [sight, handle, reply?, takeReport, jobResult] at h
          split at h <;> cases h
        | compIncorrect =>
          simp only [sight, handle, reply?, takeReport, jobResult] at h
          split at h <;> cases h
        | newData => simp [sight] at h
        | register => simp [sight] at h
        | _ => cases h
      | _ => cases h
  · have hs := c.step_perform call
    generalize c.sight call = s, c.perform call = c' at h hs
    cases hs with
    | givenUp out tries =>
      cases h
      exact ⟨_, out, tries⟩
    | _ => cases h

/-- A job that is out and fails is given up, or waits once from then on. -/
theorem event_of_failure {c : Coordinator γ} (ho : c.Orderly) {call : Call} {id : JobId}
    (hcall : call.failure? = some id) {j : Job} (out : c.job? id = some j) :
    ((c.sight call).event = some (.givenUp id) ∧ (c.perform call).job? id = none ∧
        c.config.maxAttempts ≤ j.attempts) ∨
      ((c.sight call).event = none ∧ (c.perform call).job? id = some j ∧
        (c.perform call).resend.count id = 1) := by
  have horderly : (c.perform call).Orderly := ho.step (c.step_perform call)
  cases call with
  | message site now worker m =>
    cases m with
    | grid m =>
      obtain ⟨kind, job, data⟩ := m
      have hkind : kind = .compError := by
        by_contra hne
        simp [Call.failure?, hne] at hcall
      subst hkind
      obtain rfl : job = id := Option.some.inj hcall
      have hperform : c.perform (.message site now worker (.grid ⟨.compError, job, data⟩)) =
          (c.jobError site job).1 := rfl
      have hevent : (c.sight (.message site now worker (.grid ⟨.compError, job, data⟩))).event =
          (c.jobError site job).2.2 := rfl
      rw [hperform] at horderly ⊢
      rw [hevent]
      unfold jobError at horderly ⊢
      simp only [out] at horderly ⊢
      by_cases htries : c.config.maxAttempts ≤ j.attempts
      · rw [if_pos htries]
        exact .inl ⟨rfl, c.job?_retire_self job, htries⟩
      · rw [if_neg htries] at horderly ⊢
        right
        by_cases hwaits : c.resend.contains job = true
        · rw [if_pos hwaits] at horderly ⊢
          refine ⟨rfl, out, ?_⟩
          exact List.count_eq_one_of_mem horderly.queue (List.contains_iff_mem.mp hwaits)
        · rw [if_neg hwaits] at horderly ⊢
          refine ⟨rfl, out, ?_⟩
          refine List.count_eq_one_of_mem horderly.queue ?_
          exact List.mem_append_right _ (List.mem_singleton.mpr rfl)
    | _ => cases hcall
  | _ => cases hcall

/-! ## The limit -/

/-- No job was handed out more often than the limit allows, and jobs that wait have not reached
it. -/
structure Limited (c : Coordinator γ) (ss : List Sight) : Prop where
  times : ∀ id, handOuts ss id ≤ max 1 c.config.maxAttempts.toNat
  queue : ∀ id ∈ c.resend, ∀ j, c.job? id = some j → j.attempts < c.config.maxAttempts

theorem limited_new (config : GridConfig) (source : JobSource γ) (g : γ) :
    Limited (new config source g) [] where
  times := fun _ => Nat.zero_le _
  queue := fun _ h => by cases h

/-- A step that hands out nothing, and queues only jobs that have not reached the limit. -/
theorem Limited.of_same {c c' : Coordinator γ} {ss : List Sight} {s : Sight} (h : Limited c ss)
    (hhanded : s.handed = none) (hconfig : c'.config = c.config)
    (hout : ∀ id j, c'.job? id = some j → c.job? id = some j)
    (hqueue : ∀ id ∈ c'.resend, id ∈ c.resend ∨
      ∃ j, c.job? id = some j ∧ j.attempts < c.config.maxAttempts) :
    Limited c' (ss ++ [s]) := by
  refine ⟨?_, ?_⟩
  · intro id
    rw [handOuts_snoc_of_none ss hhanded, hconfig]
    exact h.times id
  · intro id hid j hj
    rw [hconfig]
    rcases hqueue id hid with hold | ⟨j', hj', htries⟩
    · exact h.queue id hold j (hout id j hj)
    · cases hj'.symm.trans (hout id j hj)
      exact htries

/-- One step keeps the limit, if it queues no job for being out too long. -/
theorem Limited.step {c c' : Coordinator γ} {ss : List Sight} {s : Sight} (h : Limited c ss)
    (ho : c.Orderly) (ha : Accounted c ss) (hat : Attempted c ss) (hs : Step c s c')
    (few : (generated (ss ++ [s])).length ≤ idCount)
    (hqueue : ∀ id ∈ c'.resend, id ∈ c.resend ∨
      ∃ j, c.job? id = some j ∧ j.attempts < c.config.maxAttempts) :
    Limited c' (ss ++ [s]) := by
  cases hs with
  | quiet => exact h.of_same rfl rfl (fun _ _ hj => hj) hqueue
  | requeued now => exact h.of_same rfl rfl (fun _ _ hj => hj) hqueue
  | failed out tries absent => exact h.of_same rfl rfl (fun _ _ hj => hj) hqueue
  | reported out => exact h.of_same rfl rfl (fun _ _ => job?_of_job?_retire) hqueue
  | givenUp out tries => exact h.of_same rfl rfl (fun _ _ => job?_of_job?_retire) hqueue
  | @again j rest now found =>
    obtain ⟨retired, hresend, hout, _⟩ := takeResend_eq_some found
    have hwaits : j.id ∈ c.resend := by
      rw [hresend]
      exact List.mem_append_right _ List.mem_cons_self
    have htries : j.attempts.toNat < c.config.maxAttempts.toNat :=
      UInt32.lt_iff_toNat_lt.mp (h.queue j.id hwaits j hout)
    refine ⟨?_, ?_⟩
    · intro id
      show _ ≤ max 1 c.config.maxAttempts.toNat
      rw [handOuts_snoc_handing, Job.id_handOut]
      by_cases hid : j.id = id
      · have hcount : handOuts ss id = j.attempts.toNat := by
          subst hid
          exact (hat.out j.id j hout).symm
        rw [if_pos hid, hcount]
        omega
      · rw [if_neg hid]
        exact h.times id
    · -- it has left the queue, in which it was only once
      intro id hid j' hj'
      have hrest : id ∈ rest := hid
      have hne : id ≠ j.id := by
        rintro rfl
        have hnodup := ho.queue
        rw [hresend] at hnodup
        exact (List.nodup_cons.mp hnodup.of_append_right).1 hrest
      rw [job?_putJob_of_ne _ (j.handOut now) hne] at hj'
      refine h.queue id ?_ j' hj'
      rw [hresend]
      exact List.mem_append_right _ (List.mem_cons_of_mem _ hrest)
  | fresh now empty =>
    have hlt : (generated ss).length < idCount := by
      rw [generated_snoc, List.length_append] at few
      exact few
    refine ⟨?_, ?_⟩
    · intro id
      show _ ≤ max 1 c.config.maxAttempts.toNat
      rw [handOuts_snoc_handing, id_generate]
      by_cases hid : c.nextId = id
      · have hcount : handOuts ss id = 0 := by
          subst hid
          exact hat.unknown c.nextId (ha.nextId_not_mem hlt)
        rw [if_pos hid, hcount]
        exact Nat.le_max_left 1 _
      · rw [if_neg hid]
        exact h.times id
    · intro id hid
      cases hid

/-! ## Runs from the start -/

section

variable (config : GridConfig) (source : JobSource γ) (g : γ) {calls : List Call}

/-- After any calls a job's count is the number of times that it was handed out. -/
theorem attempted_after
    (few : (generated ((new config source g).sights calls)).length ≤ idCount)
    (rare : ∀ id, handOuts ((new config source g).sights calls) id < idCount) :
    Attempted ((new config source g).after calls) ((new config source g).sights calls) := by
  have hrun := run_sights (new config source g) calls
  simpa using hrun.attempted (attempted_new config source g) (accounted_new config source g)
    (by simpa using few) (by simpa using rare)

/-- If no job is ever out too long, the limit is kept by any calls. -/
theorem limited_after
    (few : (generated ((new config source g).sights calls)).length ≤ idCount)
    (rare : ∀ id, handOuts ((new config source g).sights calls) id < idCount)
    (idle : ∀ front now back, calls = front ++ .requeue now :: back →
      (((new config source g).after front).requeueStale now).1 = 0) :
    Limited ((new config source g).after calls) ((new config source g).sights calls) := by
  induction calls using List.reverseRecOn with
  | nil => exact limited_new config source g
  | append_singleton calls call ih =>
    have hsights : (new config source g).sights (calls ++ [call]) =
        (new config source g).sights calls ++ [((new config source g).after calls).sight call] :=
      sights_append _ calls [call]
    have hafter : (new config source g).after (calls ++ [call]) =
        ((new config source g).after calls).perform call := by
      simp [after]
    rw [hsights] at few rare ⊢
    rw [hafter]
    have fewBefore := Nat.le_trans (length_generated_le_snoc _ _) few
    have rareBefore : ∀ id, handOuts ((new config source g).sights calls) id < idCount := by
      intro id
      exact Nat.lt_of_le_of_lt (handOuts_le_snoc _ _ id) (rare id)
    have idleBefore : ∀ front now back, calls = front ++ .requeue now :: back →
        (((new config source g).after front).requeueStale now).1 = 0 := by
      intro front now back heq
      refine idle front now (back ++ [call]) ?_
      rw [heq, List.append_assoc, List.cons_append]
    refine (ih fewBefore rareBefore idleBefore).step (orderly_after config source g calls)
      (accounted_after config source g fewBefore)
      (attempted_after config source g fewBefore rareBefore) (step_perform _ call) few ?_
    intro id hid
    refine mem_resend_perform hid ?_
    rintro now rfl
    exact idle calls now [] rfl

/-- After any calls, each job that is out counts how often it was handed out. A job is given up only
when it fails, is out, and was handed out as often as the limit says; any other failure of a job
that is out leaves it waiting once. If no job was ever queued for being out too long, no job was
handed out more often than the limit allows. -/
theorem attempts_end_at_limit (calls : List Call)
    (few : (generated ((new config source g).sights calls)).length ≤ idCount)
    (rare : ∀ id, handOuts ((new config source g).sights calls) id < idCount) :
    let c := (new config source g).after calls
    let ss := (new config source g).sights calls
    (∀ id j, c.job? id = some j → j.attempts.toNat = handOuts ss id) ∧
      (∀ call id, (c.sight call).event = some (.givenUp id) →
        call.failure? = some id ∧ (c.job? id).isSome ∧
          config.maxAttempts.toNat ≤ handOuts ss id) ∧
      (∀ call id, call.failure? = some id → (c.job? id).isSome →
        ((c.sight call).event = some (.givenUp id) ∧ (c.perform call).job? id = none) ∨
          ((c.sight call).event = none ∧ (c.perform call).job? id = c.job? id ∧
            (c.perform call).resend.count id = 1)) ∧
      ((∀ front now back, calls = front ++ .requeue now :: back →
          (((new config source g).after front).requeueStale now).1 = 0) →
        ∀ id, handOuts ss id ≤ max 1 config.maxAttempts.toNat) := by
  intro c ss
  have hconfig : c.config = config := (run_sights (new config source g) calls).config_eq
  have hat : Attempted c ss := attempted_after config source g few rare
  refine ⟨hat.out, ?_, ?_, ?_⟩
  · intro call id hevent
    obtain ⟨hcall, j, out, htries⟩ := event_givenUp hevent
    refine ⟨hcall, by simp [out], ?_⟩
    rw [← hat.out id j out, ← hconfig]
    exact UInt32.le_iff_toNat_le.mp htries
  · intro call id hcall hout
    obtain ⟨j, out⟩ := Option.isSome_iff_exists.mp hout
    rcases event_of_failure (orderly_after config source g calls) hcall out with h | h
    · exact .inl ⟨h.1, h.2.1⟩
    · rw [out]
      exact .inr h
  · intro idle id
    have hlimit := limited_after config source g few rare idle
    rw [← hconfig]
    exact hlimit.times id

end

/-- A report that the first job failed. -/
def failure : Call :=
  let site : Site := .new (.new .server .default (.ipv4 10 8 8 8 8) none)
  .message site 1 (.ipv4 10 0 0 1 1) (.grid (.ofData .compError 0 []))

/-- A job fails, and a duplicate of the report comes too. It is handed out once more. -/
def twoFailures : List Call :=
  [.next 0, failure, failure, .next 2]

/-- Where a job may be tried twice, it is handed out twice, and given up with the next failure. -/
theorem duplicate_failures_end_at_limit :
    let c₀ := new ⟨1800, 60, 2⟩ numbered 0
    (generated (c₀.sights twoFailures)).length ≤ idCount ∧
      (∀ id, handOuts (c₀.sights twoFailures) id < idCount) ∧
      (∀ id j, (c₀.after twoFailures).job? id = some j →
        j.attempts.toNat = handOuts (c₀.sights twoFailures) id) ∧
      ((c₀.after twoFailures).sight failure).event = some (.givenUp 0) ∧
      2 ≤ handOuts (c₀.sights twoFailures) 0 ∧
      ∀ id, handOuts (c₀.sights twoFailures) id ≤ 2 := by
  intro c₀
  have few : (generated (c₀.sights twoFailures)).length ≤ idCount := by decide
  have rare : ∀ id, handOuts (c₀.sights twoFailures) id < idCount := by
    intro id
    refine Nat.lt_of_le_of_lt List.count_le_length ?_
    decide
  have event : ((c₀.after twoFailures).sight failure).event = some (.givenUp 0) := by decide
  obtain ⟨hcount, hgivenUp, -, hlimit⟩ :=
    attempts_end_at_limit ⟨1800, 60, 2⟩ numbered 0 twoFailures few rare
  refine ⟨few, rare, hcount, event, (hgivenUp failure 0 event).2.2, ?_⟩
  refine hlimit ?_
  intro front now back heq
  have hmem : Call.requeue now ∈ twoFailures := by
    rw [heq]
    exact List.mem_append_right _ List.mem_cons_self
  simp [twoFailures, failure] at hmem

end Coordinator

end Parley
