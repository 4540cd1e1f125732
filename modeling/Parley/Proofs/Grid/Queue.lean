import Mathlib.Data.List.Nodup
import Parley.Proofs.Grid.Steps

/-!
# The queue of jobs to be handed out again

Jobs come into the queue when they fail and when they are out too long. In every run no id waits in
it twice, and no two jobs that are out have the same id (`Orderly`). Ids of jobs that are settled
may stay in the queue; those that wait for a job that is out are `waiting`.

* `Orderly.step`, `Run.orderly` — one step and a whole run keep the queue in order;
* `requeueStale_eq` — what is queued for being out too long, and in which order;
* `mem_resend_perform` — which jobs one call brings into the queue;
* `sights_nexts` — asking as often as jobs wait hands out each of them, and makes no new one.
-/

namespace Parley

namespace Coordinator

variable {γ : Type}

/-! ## Jobs that are out -/

theorem isSome_job?_iff (c : Coordinator γ) (id : JobId) :
    (c.job? id).isSome ↔ id ∈ c.jobs.map (·.id) := by
  simp [job?]

theorem map_id_putJob (c : Coordinator γ) (j : Job) :
    (c.putJob j).jobs.map (·.id) = (c.jobs.map (·.id)).filter (· != j.id) ++ [j.id] := by
  rw [List.filter_map]
  simp [putJob, Function.comp_def]

theorem map_id_retire (c : Coordinator γ) (id : JobId) :
    (c.retire id).jobs.map (·.id) = (c.jobs.map (·.id)).filter (· != id) := by
  rw [List.filter_map]
  rfl

/-- No id waits twice, and no two jobs that are out have the same id. -/
structure Orderly (c : Coordinator γ) : Prop where
  queue : c.resend.Nodup
  ids : (c.jobs.map (·.id)).Nodup

theorem orderly_new (config : GridConfig) (source : JobSource γ) (g : γ) :
    Orderly (new config source g) :=
  ⟨List.nodup_nil, List.nodup_nil⟩

/-! ## Jobs that are out too long -/

theorem mem_stale_iff {c : Coordinator γ} {now : Nat} {j : Job} :
    j ∈ c.stale now ↔
      j ∈ c.jobs ∧ c.config.jobTimeout < now - j.handedOut ∧ j.id ∉ c.resend := by
  simp [stale, isStale, List.mem_mergeSort]

theorem Orderly.nodup_stale {c : Coordinator γ} (h : c.Orderly) (now : Nat) :
    ((c.stale now).map (·.id)).Nodup := by
  have hperm : ((c.stale now).map (·.id)).Perm ((c.jobs.filter (c.isStale now)).map (·.id)) :=
    (List.mergeSort_perm _ _).map _
  rw [hperm.nodup_iff]
  exact (List.filter_sublist.map _).nodup h.ids

theorem older_trans (a b c : Job) (hab : older a b = true) (hbc : older b c = true) :
    older a c = true := by
  simp only [older, Bool.or_eq_true, Bool.and_eq_true, decide_eq_true_eq, beq_iff_eq,
    UInt32.le_iff_toNat_le] at *
  omega

theorem older_total (a b : Job) : (older a b || older b a) = true := by
  simp only [older, Bool.or_eq_true, Bool.and_eq_true, decide_eq_true_eq, beq_iff_eq,
    UInt32.le_iff_toNat_le]
  omega

/-- The order in which stale jobs are queued: by the time when they went out, then by id. -/
def Before (a b : Job) : Prop :=
  a.handedOut < b.handedOut ∨ a.handedOut = b.handedOut ∧ a.id < b.id

theorem Orderly.pairwise_stale {c : Coordinator γ} (h : c.Orderly) (now : Nat) :
    (c.stale now).Pairwise Before := by
  have hsorted : (c.stale now).Pairwise fun a b => older a b = true :=
    List.pairwise_mergeSort older_trans older_total _
  have hne : (c.stale now).Pairwise fun a b => a.id ≠ b.id :=
    List.pairwise_map.mp (h.nodup_stale now)
  refine (hsorted.and hne).imp ?_
  rintro a b ⟨hle, hid⟩
  have hid' : a.id.toNat ≠ b.id.toNat := by
    intro heq
    exact hid (UInt32.toNat_inj.mp heq)
  simp only [older, Bool.or_eq_true, Bool.and_eq_true, decide_eq_true_eq, beq_iff_eq,
    UInt32.le_iff_toNat_le] at hle
  unfold Before
  rw [UInt32.lt_iff_toNat_lt]
  omega

/-- Jobs that are out too long come behind those that wait already, the oldest first. A second look
at the same time finds none. -/
theorem Orderly.requeueStale_eq {c : Coordinator γ} (h : c.Orderly) (now : Nat) :
    ∃ found : List Job,
      c.requeueStale now = (found.length, { c with resend := c.resend ++ found.map (·.id) }) ∧
        found.Pairwise Before ∧
        (∀ j, j ∈ found ↔
          j ∈ c.jobs ∧ c.config.jobTimeout < now - j.handedOut ∧ j.id ∉ c.resend) ∧
        ((c.requeueStale now).2.requeueStale now).1 = 0 := by
  refine ⟨c.stale now, rfl, h.pairwise_stale now, fun j => mem_stale_iff, ?_⟩
  show ((c.requeueStale now).2.stale now).length = 0
  rw [List.length_eq_zero_iff, List.eq_nil_iff_forall_not_mem]
  intro j hj
  obtain ⟨hout, hold, hfree⟩ := mem_stale_iff.mp hj
  apply hfree
  show j.id ∈ c.resend ++ (c.stale now).map (·.id)
  by_cases hwaits : j.id ∈ c.resend
  · exact List.mem_append_left _ hwaits
  · exact List.mem_append_right _ (List.mem_map_of_mem (mem_stale_iff.mpr ⟨hout, hold, hwaits⟩))

/-! ## The order is kept -/

theorem Orderly.putJob {c : Coordinator γ} (h : c.Orderly) (j : Job) : (c.putJob j).Orderly := by
  refine ⟨h.queue, ?_⟩
  rw [map_id_putJob, List.nodup_append]
  refine ⟨h.ids.filter _, List.nodup_singleton _, ?_⟩
  intro id hid other hother
  rw [List.mem_singleton.mp hother]
  simpa using (List.mem_filter.mp hid).2

theorem Orderly.retire {c : Coordinator γ} (h : c.Orderly) (id : JobId) :
    (c.retire id).Orderly := by
  refine ⟨h.queue, ?_⟩
  rw [map_id_retire]
  exact h.ids.filter _

/-- One step keeps the queue in order. -/
theorem Orderly.step {c c' : Coordinator γ} {s : Sight} (h : c.Orderly) (hs : Step c s c') :
    c'.Orderly := by
  cases hs with
  | quiet => exact h
  | requeued now =>
    refine ⟨?_, h.ids⟩
    show (c.resend ++ (c.stale now).map (·.id)).Nodup
    rw [List.nodup_append]
    refine ⟨h.queue, h.nodup_stale now, ?_⟩
    rintro id hid _ hstale rfl
    obtain ⟨j, hj, rfl⟩ := List.mem_map.mp hstale
    exact (mem_stale_iff.mp hj).2.2 hid
  | @failed id j out tries absent =>
    refine ⟨?_, h.ids⟩
    rw [List.nodup_append]
    refine ⟨h.queue, List.nodup_singleton _, ?_⟩
    rintro other hother _ hid rfl
    rw [List.mem_singleton.mp hid] at hother
    exact absent hother
  | @again j rest now found =>
    obtain ⟨retired, hqueue, -, -⟩ := takeResend_eq_some found
    have hrest : rest.Nodup := by
      have hnodup := h.queue
      rw [hqueue] at hnodup
      exact (List.nodup_cons.mp hnodup.of_append_right).2
    have hleft : Orderly { c with resend := rest } := ⟨hrest, h.ids⟩
    exact hleft.putJob _
  | fresh now empty =>
    have hleft : Orderly { c with
        resend := []
        generator := (c.source.next c.generator).2
        nextId := c.nextId + 1 } := ⟨List.nodup_nil, h.ids⟩
    exact hleft.putJob _
  | reported out => exact h.retire _
  | givenUp out tries => exact h.retire _

/-- A whole run keeps the queue in order. -/
theorem Run.orderly {c₀ c : Coordinator γ} {ss : List Sight} (hr : Run c₀ ss c)
    (h : c₀.Orderly) : c.Orderly := by
  induction hr with
  | nil => exact h
  | snoc _ hs ih => exact ih.step hs

theorem orderly_after (config : GridConfig) (source : JobSource γ) (g : γ) (calls : List Call) :
    ((new config source g).after calls).Orderly :=
  (run_sights (new config source g) calls).orderly (orderly_new config source g)

/-! ## Who comes into the queue -/

theorem mem_resend_nextJob {c : Coordinator γ} {now : Nat} {id : JobId}
    (h : id ∈ (c.nextJob now).2.resend) : id ∈ c.resend := by
  unfold nextJob at h
  cases hf : c.takeResend c.resend with
  | none =>
    rw [hf] at h
    cases h
  | some found =>
    obtain ⟨j, rest⟩ := found
    rw [hf] at h
    obtain ⟨retired, hqueue, -, -⟩ := takeResend_eq_some hf
    rw [hqueue]
    exact List.mem_append_right _ (List.mem_cons_of_mem _ h)

theorem mem_resend_jobError {c : Coordinator γ} {site : Site} {id other : JobId}
    (h : other ∈ (c.jobError site id).1.resend) :
    other ∈ c.resend ∨
      other = id ∧ ∃ j, c.job? id = some j ∧ j.attempts < c.config.maxAttempts := by
  unfold jobError at h
  cases hj : c.job? id with
  | none =>
    rw [hj] at h
    exact .inl h
  | some j =>
    simp only [hj] at h
    by_cases htries : c.config.maxAttempts ≤ j.attempts
    · rw [if_pos htries] at h
      exact .inl h
    · rw [if_neg htries] at h
      by_cases hwaits : c.resend.contains id = true
      · rw [if_pos hwaits] at h
        exact .inl h
      · rw [if_neg hwaits] at h
        rcases List.mem_append.mp h with h | h
        · exact .inl h
        · exact .inr ⟨List.mem_singleton.mp h, j, rfl, UInt32.not_le.mp htries⟩

theorem jobResult_resend (c : Coordinator γ) (id : JobId) (correct : Bool)
    (result : Option Bytes) : (c.jobResult id correct result).1.resend = c.resend := by
  unfold jobResult
  split <;> rfl

/-- A job comes into the queue when it failed and may be tried again. Looking for jobs that are out
too long is the only other way. -/
theorem mem_resend_perform {c : Coordinator γ} {call : Call} {id : JobId}
    (h : id ∈ (c.perform call).resend)
    (idle : ∀ now, call = .requeue now → (c.requeueStale now).1 = 0) :
    id ∈ c.resend ∨ ∃ j, c.job? id = some j ∧ j.attempts < c.config.maxAttempts := by
  cases call with
  | next now => exact .inl (mem_resend_nextJob h)
  | requeue now =>
    have hnone : c.stale now = [] := List.length_eq_zero_iff.mp (idle now rfl)
    left
    simpa [perform, requeueStale, hnone] using h
  | message site now worker m =>
    cases m with
    | grid m =>
      obtain ⟨kind, job, data⟩ := m
      cases kind with
      | newData =>
        left
        simp only [perform, handle_newData, tell_coordinator] at h
        exact mem_resend_nextJob h
      | compError =>
        rcases mem_resend_jobError h with h | ⟨rfl, hfailed⟩
        · exact .inl h
        · exact .inr hfailed
      | compSuccessful =>
        exact .inl (by simpa [perform, handle, reply?, takeReport, jobResult_resend] using h)
      | compIncorrect =>
        exact .inl (by simpa [perform, handle, reply?, takeReport, jobResult_resend] using h)
      | register => exact .inl (by simpa [perform] using h)
      | _ => exact .inl h
    | _ => exact .inl h

/-! ## The queue runs empty -/

/-- The jobs that are out and wait to be handed out again, in the order of the queue. -/
def waiting (c : Coordinator γ) : List JobId :=
  c.resend.filter fun id => (c.job? id).isSome

theorem mem_waiting_iff {c : Coordinator γ} {id : JobId} :
    id ∈ c.waiting ↔ id ∈ c.resend ∧ (c.job? id).isSome :=
  List.mem_filter

theorem takeResend_eq_none {c : Coordinator γ} {queue : List JobId} :
    c.takeResend queue = none ↔ ∀ id ∈ queue, c.job? id = none := by
  induction queue with
  | nil => simp [takeResend]
  | cons id queue ih =>
    unfold takeResend
    cases hj : c.job? id <;> simp [hj, ih]

/-- If no job waits a new one is made. -/
theorem takeResend_of_waiting_nil {c : Coordinator γ} (h : c.waiting = []) :
    c.takeResend c.resend = none := by
  cases hf : c.takeResend c.resend with
  | none => rfl
  | some found =>
    obtain ⟨j, rest⟩ := found
    obtain ⟨retired, hqueue, hout, -⟩ := takeResend_eq_some hf
    have hmem : j.id ∈ c.waiting := by
      rw [mem_waiting_iff, hqueue, hout]
      exact ⟨List.mem_append_right _ List.mem_cons_self, rfl⟩
    rw [h] at hmem
    cases hmem

/-- If jobs wait the first of them is handed out, and the others go on waiting. -/
theorem next_of_waiting_cons {c : Coordinator γ} {id : JobId} {ids : List JobId}
    (h : c.waiting = id :: ids) (now : Nat) :
    ∃ j rest, c.job? id = some j ∧ j.id = id ∧
      c.sight (.next now) = .handing (j.handOut now) false ∧
      c.perform (.next now) = { c with resend := rest }.putJob (j.handOut now) ∧
      (c.perform (.next now)).waiting = ids := by
  cases hf : c.takeResend c.resend with
  | none =>
    exfalso
    have hmem : id ∈ c.waiting := by
      rw [h]
      exact List.mem_cons_self
    obtain ⟨hqueue, hout⟩ := mem_waiting_iff.mp hmem
    rw [takeResend_eq_none.mp hf id hqueue] at hout
    cases hout
  | some found =>
    obtain ⟨j, rest⟩ := found
    obtain ⟨retired, hqueue, hout, hnone⟩ := takeResend_eq_some hf
    have hsettled : retired.filter (fun id => (c.job? id).isSome) = [] := by
      rw [List.filter_eq_nil_iff]
      intro other hother
      simp [hnone other hother]
    have hwaiting : c.waiting = j.id :: rest.filter fun id => (c.job? id).isSome := by
      unfold waiting
      rw [hqueue, List.filter_append, hsettled, List.nil_append, List.filter_cons_of_pos]
      simp [hout]
    rw [h] at hwaiting
    obtain ⟨rfl, rfl⟩ := List.cons.inj hwaiting
    have hnext : c.nextJob now =
        (j.handOut now, { c with resend := rest }.putJob (j.handOut now)) := by
      unfold nextJob
      rw [hf]
    have hperform : c.perform (.next now) =
        { c with resend := rest }.putJob (j.handOut now) := congrArg Prod.snd hnext
    refine ⟨j, rest, hout, rfl, ?_, hperform, ?_⟩
    · simp [sight, Call.demand?, Call.finding?, Sight.handing, hf, hnext]
    · rw [hperform]
      apply List.filter_congr
      intro other _
      have hstill : ({ c with resend := rest }.job? (j.handOut now).id).isSome := by
        show (c.job? j.id).isSome
        rw [hout]
        rfl
      exact isSome_job?_putJob hstill other

/-- Asked as often as jobs wait, the coordinator hands out each of them and makes no new one. -/
theorem sights_nexts {c : Coordinator γ} (nodup : c.waiting.Nodup) {times : List Nat}
    (enough : times.length = c.waiting.length) :
    let calls := times.map Call.next
    ∃ js : List Job, c.sights calls = js.map (Sight.handing · false) ∧
      js.map (·.id) = c.waiting ∧
      (∀ j ∈ js, ∃ j₀, c.job? j.id = some j₀ ∧ j.data = j₀.data ∧ j.attempts = j₀.attempts + 1) ∧
      (c.after calls).waiting = [] ∧ (c.after calls).source = c.source ∧
      (c.after calls).generator = c.generator := by
  generalize hids : c.waiting = ids at nodup enough
  induction times generalizing c ids with
  | nil =>
    have hnil : ids = [] := List.length_eq_zero_iff.mp enough.symm
    subst hnil
    refine ⟨[], rfl, rfl, ?_, hids, rfl, rfl⟩
    intro j hj
    cases hj
  | cons now times ih =>
    cases ids with
    | nil => cases enough
    | cons id ids =>
      obtain ⟨j, rest, hout, hid, hsight, hperform, hwaiting⟩ := next_of_waiting_cons hids now
      obtain ⟨hfresh, hnodup⟩ := List.nodup_cons.mp nodup
      obtain ⟨js, hsights, hjs, hkept, hempty, hsource, hgenerator⟩ :=
        ih ids hwaiting hnodup (Nat.succ.inj enough)
      refine ⟨j.handOut now :: js, ?_, ?_, ?_, hempty, ?_, ?_⟩
      · rw [List.map_cons, sights, hsight, hsights]
        rfl
      · rw [List.map_cons, hjs]
        exact congrArg (· :: ids) hid
      · intro j' hj'
        rcases List.mem_cons.mp hj' with rfl | hj'
        · exact ⟨j, hid ▸ hout, rfl, rfl⟩
        · -- the jobs behind the first are what they were, for they have other ids
          obtain ⟨j₀, hj₀, hdata, htries⟩ := hkept j' hj'
          have hmem : j'.id ∈ ids := by
            rw [← hjs]
            exact List.mem_map_of_mem hj'
          have hne : j'.id ≠ (j.handOut now).id := by
            intro heq
            rw [heq] at hmem
            exact hfresh (hid ▸ hmem)
          rw [hperform, job?_putJob_of_ne _ _ hne] at hj₀
          exact ⟨j₀, hj₀, hdata, htries⟩
      · exact hsource.trans (by rw [hperform]; rfl)
      · exact hgenerator.trans (by rw [hperform]; rfl)

end Coordinator

end Parley
