import Parley.Proofs.Grid.Calls

/-!
# Jobs in order, and requests for them

- `Fetcher.Proper.cases`: what a call can have come to know, and what it did then.
- `Fetchers.Sound.sent_goes`: a call that moves queues as many requests as it counts.
- `Fetchers.Sound.sent_le`: at most one request more was sent than calls have ended after one.
- `Fetchers.asks_on_demand`: jobs are returned in the order in which they were pushed, and a call
  asks for a job, once, exactly if it found the worker running and no job in the queue.
-/

namespace Parley

namespace Fetcher

variable {f : Fetcher}

/-- A call did not find that it needs to ask, or it is about to ask, or it has asked. -/
theorem Proper.cases (h : f.Proper) :
    (f.requests = [] ∧ ¬(f.running? = some true ∧ f.empty? = some true)) ∨
      (f.requests = [] ∧ f.stage = .asking) ∨
      ((f.running? = some true ∧ f.empty? = some true ∧ f.stage ≠ .asking) ∧
        ((∃ c, f.requests = [.ok c]) ∨
          ∃ e, f.requests = [.error e] ∧ f.stage = .finished (.error e))) := by
  have unaware : f.course = (none, none, []) → f.requests = [] ∧
      ¬(f.running? = some true ∧ f.empty? = some true) := by
    intro hcourse
    obtain ⟨hrunning, hempty, hrequests⟩ := course_eq_iff.mp hcourse
    simp [hrunning, hrequests]
  have asked : f.HasAsked → f.stage ≠ .asking →
      (f.running? = some true ∧ f.empty? = some true ∧ f.stage ≠ .asking) ∧
        ∃ c, f.requests = [.ok c] := by
    rintro ⟨c, hcourse⟩ hstage
    obtain ⟨hrunning, hempty, hrequests⟩ := course_eq_iff.mp hcourse
    exact ⟨⟨hrunning, hempty, hstage⟩, c, hrequests⟩
  have served : f.WasServed → f.requests = [] ∧
      ¬(f.running? = some true ∧ f.empty? = some true) := by
    intro hcourse
    obtain ⟨hrunning, hempty, hrequests⟩ := course_eq_iff.mp hcourse
    simp [hempty, hrequests]
  cases hstage : f.stage with
  | queued | entered =>
    rw [Proper, hstage] at h
    exact .inl (unaware h)
  | admitted =>
    rw [Proper, hstage] at h
    obtain ⟨-, hempty, hrequests⟩ := course_eq_iff.mp h
    simp [hempty, hrequests]
  | asking =>
    rw [Proper, hstage] at h
    obtain ⟨seen, hcourse⟩ := h
    exact .inr (.inl ⟨(course_eq_iff.mp hcourse).2.2, rfl⟩)
  | taking =>
    rw [Proper, hstage] at h
    rw [hstage] at asked
    exact h.elim (fun h => .inl (served h))
      fun h => .inr (.inr ((asked h (by simp)).imp_right .inl))
  | missed | drowsy | asleep =>
    rw [Proper, hstage] at h
    rw [hstage] at asked
    exact .inr (.inr ((asked h (by simp)).imp_right .inl))
  | finished result =>
    rw [Proper, hstage] at h
    rw [hstage] at asked
    cases result with
    | ok j =>
      exact h.elim (fun h => .inl (served h))
        fun h => .inr (.inr ((asked h (by simp)).imp_right .inl))
    | error e =>
      rcases h with h | ⟨-, h | h⟩
      · obtain ⟨hrunning, hempty, hrequests⟩ := course_eq_iff.mp h
        exact .inr (.inr ⟨⟨hrunning, hempty, by simp⟩, .inr ⟨e, hrequests, rfl⟩⟩)
      · obtain ⟨hrunning, -, hrequests⟩ := course_eq_iff.mp h
        simp [hrunning, hrequests]
      · exact .inr (.inr ((asked h (by simp)).imp_right .inl))

theorem Proper.length_requests_le (h : f.Proper) : f.requests.length ≤ 1 := by
  rcases h.cases with ⟨hrequests, -⟩ | ⟨hrequests, -⟩ |
    ⟨-, ⟨c, hrequests⟩ | ⟨e, hrequests, -⟩⟩ <;> simp [hrequests]

/-- A call has asked exactly if it found the worker running and the queue empty, and is not just
about to ask. -/
theorem Proper.requests_ne_nil_iff (h : f.Proper) :
    f.requests ≠ [] ↔ f.running? = some true ∧ f.empty? = some true ∧ f.stage ≠ .asking := by
  rcases h.cases with ⟨hrequests, hnot⟩ | ⟨hrequests, hasking⟩ |
    ⟨hseen, ⟨c, hrequests⟩ | ⟨e, hrequests, -⟩⟩
  · simp only [hrequests, ne_eq, not_true_eq_false, false_iff]
    exact fun hseen => hnot ⟨hseen.1, hseen.2.1⟩
  · simp [hrequests, hasking]
  · simp [hrequests, hseen]
  · simp [hrequests, hseen]

/-- A call that could not ask ends in that error. -/
theorem Proper.stage_of_refused (h : f.Proper) {e : Error} (he : .error e ∈ f.requests) :
    f.stage = .finished (.error e) := by
  rcases h.cases with ⟨hrequests, -⟩ | ⟨hrequests, -⟩ |
    ⟨-, ⟨c, hrequests⟩ | ⟨e', hrequests, hstage⟩⟩
  · simp [hrequests] at he
  · simp [hrequests] at he
  · simp [hrequests] at he
  · simp only [hrequests, List.mem_singleton, Except.error.injEq] at he
    rw [he]
    exact hstage

/-- A call that sleeps has asked. -/
theorem Proper.asked_of_asleep (h : f.Proper) (hstage : f.stage = .asleep) :
    ∃ c, f.requests = [.ok c] := by
  rw [Proper, hstage] at h
  obtain ⟨c, hcourse⟩ := h
  exact ⟨c, (course_eq_iff.mp hcourse).2.2⟩

/-- A call that has asked has its turn, or is over. -/
theorem Proper.sent_le (h : f.Proper) :
    f.queued.length ≤
      f.stage.job?.toList.length + (if f.stage.hasFailed then 1 else 0) +
        if f.stage.isInside then 1 else 0 := by
  have hone : f.queued.length ≤ 1 :=
    Nat.le_trans (List.length_filterMap_le ..) h.length_requests_le
  cases hstage : f.stage with
  | queued =>
    rw [Proper, hstage] at h
    rw [queued, (course_eq_iff.mp h).2.2]
    exact Nat.zero_le _
  | finished result =>
    cases result <;>
      simpa [FetchStage.job?, FetchStage.hasFailed, FetchStage.isInside] using hone
  | _ => simpa [FetchStage.job?, FetchStage.hasFailed, FetchStage.isInside] using hone

end Fetcher

namespace Fetchers

variable {σ : Type} {w : Fetchers σ}

/-- How many requests for a job were sent. -/
def sent (w : Fetchers σ) : Nat :=
  (w.calls.flatMap (·.queued)).length

/-- Every request that was sent is that of a call that has returned a job, of one that has failed,
or of the one that has its turn. -/
theorem sent_le_of_proper {calls : List Fetcher} (h : ∀ f ∈ calls, f.Proper) :
    (calls.flatMap (·.queued)).length ≤
      (calls.filterMap (·.stage.job?)).length + calls.countP (·.stage.hasFailed) +
        calls.countP (·.stage.isInside) := by
  induction calls with
  | nil => exact Nat.le_refl 0
  | cons f rest ih =>
    have hrest := ih fun g hg => h g (List.mem_cons_of_mem _ hg)
    have hfirst := (h f List.mem_cons_self).sent_le
    rw [List.filterMap_eq_flatMap_toList] at hrest ⊢
    simp only [List.flatMap_cons, List.length_append, List.countP_cons]
    omega

theorem Sound.sent_le (h : w.Sound) :
    w.sent ≤ w.returned.length + w.calls.countP (·.stage.hasFailed) + 1 := by
  have hsent := sent_le_of_proper fun f hf => (h.fits f hf).proper
  have hlength := h.returned.length_eq
  have halone := h.alone
  unfold sent
  omega

/-- A call that moves puts as many commands into the queue of the network as it counts as requests
that were sent, and each of them is a request. Nothing else about the network changes. -/
theorem Sound.sent_goes (h : w.Sound) {w' : Fetchers σ} {k : Nat} (hgoes : w.Goes k w') :
    ∃ commands, (∀ c ∈ commands, w.net.IsRequest c) ∧
      w'.net = { w.net with queue := w.net.queue ++ commands } ∧
      w'.sent = w.sent + commands.length := by
  obtain ⟨front, f, back, worker, net, f', hcalls, -, hmoves, rfl⟩ := hgoes
  obtain ⟨commands, hqueued, hnet⟩ := hmoves.net_eq
  have hf : f ∈ w.calls := by simp [hcalls]
  refine ⟨commands, ?_, hnet, ?_⟩
  · intro c hc
    have hnoted : .ok c ∈ f'.requests := by
      rw [← Fetcher.mem_queued_iff, hqueued]
      exact List.mem_append_right _ hc
    have hrequest := hmoves.isRequest (h.fits f hf) (h.requests f hf) c hnoted
    rw [hnet] at hrequest
    exact hrequest.congr rfl rfl
  · unfold sent
    rw [hcalls]
    simp only [List.flatMap_append, List.flatMap_cons, hqueued, List.length_append]
    omega

/-- At any time the jobs that were returned, in their order, and then those in the queue are the
jobs that were pushed. A call asks for a job once at most, and exactly if it found the worker running
and the queue empty, and is not just about to ask. What it puts into the queue of the network is a
request for a job to the server, and with each of its moves the network gets the requests that are
sent by it, and nothing else. If it could not ask it returns why, and a call that sleeps, or has
slept, has asked. The requests that were sent are at most one more than the calls that have returned
a job or have failed. -/
theorem asks_on_demand {computation : Computation σ} {state : σ} {net : Network}
    (hrun : Run (start computation state net) w) :
    w.pushed = w.returned ++ w.worker.queue ∧
      w.returned.Perm (w.calls.filterMap (·.stage.job?)) ∧
      (∀ f ∈ w.calls, f.requests.length ≤ 1 ∧
        (f.requests ≠ [] ↔
          f.running? = some true ∧ f.empty? = some true ∧ f.stage ≠ .asking) ∧
        (∀ c, .ok c ∈ f.requests → w.net.IsRequest c) ∧
        (∀ e, .error e ∈ f.requests → f.stage = .finished (.error e)) ∧
        (f.stage = .asleep ∨ f.slept = true → ∃ c, f.requests = [.ok c])) ∧
      (∀ k w', w.Goes k w' → ∃ commands, (∀ c ∈ commands, w.net.IsRequest c) ∧
        w'.net = { w.net with queue := w.net.queue ++ commands } ∧
        w'.sent = w.sent + commands.length) ∧
      w.sent ≤ w.returned.length + w.calls.countP (·.stage.hasFailed) + 1 := by
  have hsound := sound_of_run hrun
  refine ⟨hsound.pushed, hsound.returned, ?_, fun k w' => hsound.sent_goes, hsound.sent_le⟩
  intro f hf
  have hfits := hsound.fits f hf
  have hproper := hfits.proper
  exact ⟨hproper.length_requests_le, hproper.requests_ne_nil_iff, hsound.requests f hf,
    fun e he => hproper.stage_of_refused he,
    fun h => h.elim hproper.asked_of_asleep hfits.slept⟩

/-- A call moves that is the only one. -/
theorem go_only {worker worker' : Worker σ} {net net' : Network} {duties : List Duty}
    {pushed returned : List Job} {f f' : Fetcher} (h : f.Moves worker net [] worker' net' f') :
    Step ⟨worker, net, [f], duties, pushed, returned⟩
      ⟨worker', net', [f'], duties, pushed, returned ++ f'.stage.job?.toList⟩ :=
  .go (k := 0) ⟨[], f, [], worker', net', f', rfl, rfl, h, rfl⟩

/-- The end of a worker that can ask its coordinator. -/
def visitor : Network :=
  .new .client .default (.ipv4 10 0 0 1 1) (some (.ipv4 10 8 8 8 8))

/-- The end of a worker after it has asked. -/
def visited : Network :=
  (visitor.sendToServer (.grid (.new .newData))).toOption.getD visitor

/-- A call that has asked, and stands somewhere. -/
def asker (stage : FetchStage) (slept : Bool) : Fetcher :=
  ⟨stage, some true, some [], visited.queue.map .ok, slept⟩

/-- A call that is alone looks at the queue of jobs, and finds nothing. -/
theorem run_looked (computation : Computation σ) (state : σ) :
    Run (start computation state visitor) ⟨.new computation state, visitor,
      [⟨.asking, some true, some [], [], false⟩], [], [], []⟩ := by
  have run : Run (start computation state visitor) _ := .single (.call _)
  have run := run.tail (go_only (.enter rfl nofun))
  have run := run.tail (go_only (.proceed rfl rfl))
  exact run.tail (go_only (.look rfl))

/-- It asks then, and falls asleep. -/
theorem run_asleep (computation : Computation σ) (state : σ) :
    Run (start computation state visitor)
      ⟨.new computation state, visited, [asker .asleep true], [], [], []⟩ := by
  have run := (run_looked computation state).tail (go_only (.ask rfl rfl rfl))
  have run := run.tail (go_only (.miss rfl nofun))
  have run := run.tail (go_only (.stay rfl rfl))
  exact run.tail (go_only (.sleep rfl))

/-- A job. -/
def errand : Job :=
  .new 7 [1] 0

/-- When a job is pushed then, the call is woken and returns it. -/
theorem run_woken (computation : Computation σ) (state : σ) :
    Run (start computation state visitor) ⟨.new computation state, visited,
      [asker (.finished (.ok errand)) true], [], [errand], [errand]⟩ := by
  have free : ∀ f ∈ [asker .asleep true], f.stage.isHolding = false := by
    simp [asker, FetchStage.isHolding]
  have run := (run_asleep computation state).tail (.push errand free)
  have run := run.tail (.wakeOne (show _ = [] ++ Duty.wakeOne :: [] from rfl)
    (show _ = [] ++ _ :: [] from rfl) rfl)
  exact run.tail (go_only (.take rfl rfl))

/-- A computation that breaks off. -/
def fruitless : Computation Unit := ⟨fun _ s => (s, none), fun _ _ => .broke⟩

/-- One request was sent, by the call that then slept until there was a job. -/
theorem errand_is_asked_for :
    ∃ w : Fetchers Unit, Run (start fruitless () visitor) w ∧ w.sent = 1 ∧ w.net = visited ∧
      w.net.queue.length = 1 ∧ w.returned = [errand] ∧ w.pushed = w.returned ++ w.worker.queue ∧
      w.returned.Perm (w.calls.filterMap (·.stage.job?)) ∧
      (∀ f ∈ w.calls, f.requests.length ≤ 1 ∧
        (f.requests ≠ [] ↔
          f.running? = some true ∧ f.empty? = some true ∧ f.stage ≠ .asking) ∧
        (∀ c, .ok c ∈ f.requests → w.net.IsRequest c) ∧
        (∀ e, .error e ∈ f.requests → f.stage = .finished (.error e)) ∧
        (f.stage = .asleep ∨ f.slept = true → ∃ c, f.requests = [.ok c])) ∧
      (∀ k w', w.Goes k w' → ∃ commands, (∀ c ∈ commands, w.net.IsRequest c) ∧
        w'.net = { w.net with queue := w.net.queue ++ commands } ∧
        w'.sent = w.sent + commands.length) ∧
      w.sent ≤ w.returned.length + w.calls.countP (·.stage.hasFailed) + 1 :=
  ⟨_, run_woken fruitless (), rfl, rfl, rfl, rfl, asks_on_demand (run_woken fruitless ())⟩

end Fetchers

end Parley
