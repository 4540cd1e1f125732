import Mathlib.Data.List.Perm.Basic
import Parley.Proofs.Grid.Fetchers

/-!
# How a call has come where it is

Where a call for the next job stands tells what it has seen of the worker and of the queue of jobs,
and what it has asked for. Since one call only has its turn, what it saw in the queue is still there
when it takes a job, and what is pushed after it found nothing comes with somebody who is about to
wake it.

* `Fetcher.Proper`, `Fetcher.Fits` — what a call has seen and done, and what it leaves to those that
  push jobs and stop the worker;
* `Fetcher.Fits.moves` — a call that moves keeps to this;
* `Fetcher.Moves.net_eq`, `Fetcher.Moves.isRequest` — a call queues what it notes as its requests, and
  nothing else;
* `Fetchers.Sound.step`, `Fetchers.sound_of_run` — all of this holds of all calls at any time.
-/

namespace Parley

namespace Fetcher

variable {σ : Type} {w w' : Worker σ} {net net' : Network} {duties : List Duty}
  {others : List Fetcher} {f f' : Fetcher}

/-- What a call saw of the worker and of the queue, and what came of asking for a job. -/
def course (f : Fetcher) : Option Bool × Option Bool × List (Except Error Command) :=
  (f.running?, f.empty?, f.requests)

theorem course_eq_iff {running? empty? : Option Bool} {requests : List (Except Error Command)} :
    f.course = (running?, empty?, requests) ↔
      f.running? = running? ∧ f.empty? = empty? ∧ f.requests = requests := by
  simp [course]

/-- A call found the queue empty, and has asked for a job once. -/
def HasAsked (f : Fetcher) : Prop :=
  ∃ c, f.course = (some true, some true, [.ok c])

/-- A call found a job in the queue, and has not asked for one. -/
def WasServed (f : Fetcher) : Prop :=
  f.course = (some true, some false, [])

/-- A call saw and did what leads to where it stands. -/
def Proper (f : Fetcher) : Prop :=
  match f.stage with
  | .queued | .entered => f.course = (none, none, [])
  | .admitted => f.course = (some true, none, [])
  | .asking => ∃ seen, f.course = (some true, some seen, [])
  | .taking | .finished (.ok _) => f.WasServed ∨ f.HasAsked
  | .missed | .drowsy | .asleep => f.HasAsked
  | .finished (.error e) =>
    f.course = (some true, some true, [.error e]) ∨
      e = .shuttingDown ∧ (f.course = (some false, none, []) ∨ f.HasAsked)

/-- What holds of a call at any time. -/
structure Fits (w : Worker σ) (duties : List Duty) (f : Fetcher) : Prop where
  proper : f.Proper
  slept : f.slept = true → ∃ c, f.requests = [.ok c]
  /-- The job that it saw in the queue is still there. -/
  served : f.stage = .asking ∨ f.stage = .taking → f.empty? = some false → w.queue ≠ []
  held : f.stage.isHolding = true → w.queue = []
  drowsy : f.stage = .drowsy → w.running = true ∨ .wakeAll ∈ duties
  /-- It does not sleep through a job or the end of the worker without somebody about to wake it. -/
  asleep : f.stage = .asleep →
    (w.queue = [] ∨ .wakeOne ∈ duties) ∧ (w.running = true ∨ .wakeAll ∈ duties)

/-- A call that has asked has seen the queue empty. -/
theorem HasAsked.not_seen {P : Prop} (h : f.HasAsked) (hseen : f.empty? = some false) : P := by
  obtain ⟨c, hcourse⟩ := h
  cases (course_eq_iff.mp hcourse).2.1.symm.trans hseen

theorem fits_new : new.Fits w duties :=
  ⟨rfl, nofun, nofun, nofun, nofun, nofun⟩

/-- What happens to the worker does not matter to a call that has not got its turn, or is over. -/
theorem Fits.of_outside {duties' : List Duty} (h : f.Fits w duties)
    (houtside : f.stage.isInside = false) : f.Fits w' duties' := by
  have hother : ∀ s : FetchStage, s.isInside = true → f.stage ≠ s := by
    rintro s hs rfl
    cases houtside.symm.trans hs
  refine ⟨h.proper, h.slept,
    fun hstage => (hstage.elim (hother _ rfl) (hother _ rfl)).elim, ?_,
    fun hstage => absurd hstage (hother _ rfl), fun hstage => absurd hstage (hother _ rfl)⟩
  intro hholding
  cases (FetchStage.isHolding_of_outside houtside).symm.trans hholding

theorem awake_of_not_isAsleep (h : f.stage.isAsleep = false) : f.awake = f := by
  simp [awake, h]

/-- A call that sleeps goes on to take a job when it is woken, and any other stays as it is. -/
theorem awake_cases (f : Fetcher) :
    (f.stage = .asleep ∧ f.awake = { f with stage := .taking }) ∨
      (f.stage.isAsleep = false ∧ f.awake = f) := by
  cases h : f.stage.isAsleep with
  | true => exact .inl ⟨FetchStage.eq_asleep h, if_pos h⟩
  | false => exact .inr ⟨rfl, awake_of_not_isAsleep h⟩

@[simp] theorem isAsleep_awake (f : Fetcher) : f.awake.stage.isAsleep = false := by
  rcases f.awake_cases with ⟨-, heq⟩ | ⟨h, heq⟩
  · rw [heq]
    rfl
  · rw [heq, h]

@[simp] theorem isInside_awake (f : Fetcher) : f.awake.stage.isInside = f.stage.isInside := by
  rcases f.awake_cases with ⟨h, heq⟩ | ⟨-, heq⟩
  · rw [heq, h]
    rfl
  · rw [heq]

@[simp] theorem isHolding_awake (f : Fetcher) : f.awake.stage.isHolding = f.stage.isHolding := by
  rcases f.awake_cases with ⟨h, heq⟩ | ⟨-, heq⟩
  · rw [heq, h]
    rfl
  · rw [heq]

@[simp] theorem job?_awake (f : Fetcher) : f.awake.stage.job? = f.stage.job? := by
  rcases f.awake_cases with ⟨h, heq⟩ | ⟨-, heq⟩
  · rw [heq, h]
    rfl
  · rw [heq]

@[simp] theorem requests_awake (f : Fetcher) : f.awake.requests = f.requests := by
  rcases f.awake_cases with ⟨-, heq⟩ | ⟨-, heq⟩ <;> rw [heq]

theorem Fits.awake (h : f.Fits w duties) : f.awake.Fits w duties := by
  rcases f.awake_cases with ⟨hstage, heq⟩ | ⟨-, heq⟩
  · have hasked : f.HasAsked := by
      have hproper := h.proper
      rwa [Proper, hstage] at hproper
    rw [heq]
    exact ⟨.inr hasked, h.slept, fun _ => hasked.not_seen, nofun, nofun, nofun⟩
  · rw [heq]
    exact h

/-- A job that is pushed can be seen by a call, or the call is about to be woken if it sleeps. -/
theorem Fits.push (h : f.Fits w duties) (hfree : f.stage.isHolding = false) (j : Job) :
    f.Fits (w.push j) (duties ++ [.wakeOne]) := by
  refine ⟨h.proper, h.slept, fun _ _ => List.append_ne_nil_of_right_ne_nil _ nofun, ?_, ?_, ?_⟩
  · intro hholding
    rw [hfree] at hholding
    cases hholding
  · intro hstage
    exact (h.drowsy hstage).imp_right (List.mem_append_left _)
  · intro hstage
    exact ⟨.inr (List.mem_append_right _ List.mem_cons_self),
      (h.asleep hstage).2.imp_right (List.mem_append_left _)⟩

/-- The data to compute with do not matter to a call. -/
theorem Fits.change (h : f.Fits w duties) (s : σ) : f.Fits { w with state := s } duties :=
  ⟨h.proper, h.slept, h.served, h.held, h.drowsy, h.asleep⟩

/-- After the worker was stopped all calls that sleep are about to be woken. -/
theorem Fits.stop (h : f.Fits w duties) : f.Fits w.stop (duties ++ [.wakeAll]) := by
  have hduty : Duty.wakeAll ∈ duties ++ [.wakeAll] := List.mem_append_right _ List.mem_cons_self
  refine ⟨h.proper, h.slept, h.served, h.held, fun _ => .inr hduty, ?_⟩
  intro hstage
  exact ⟨(h.asleep hstage).1.imp_right (List.mem_append_left _), .inr hduty⟩

/-- Those that are about to wake calls are not needed by a call that does not sleep, except that it
may fall asleep when the worker was stopped. -/
theorem Fits.of_not_isAsleep {duties' : List Duty} (h : f.Fits w duties)
    (hawake : f.stage.isAsleep = false)
    (hduties : f.stage = .drowsy → .wakeAll ∈ duties → .wakeAll ∈ duties') : f.Fits w duties' := by
  refine ⟨h.proper, h.slept, h.served, h.held, ?_, ?_⟩
  · intro hstage
    exact (h.drowsy hstage).imp_right (hduties hstage)
  · intro hstage
    rw [hstage] at hawake
    cases hawake

/-- A call that is to ask has found the worker running and has looked at the queue of jobs. -/
theorem Proper.of_asking (h : f.Proper) (hstage : f.stage = .asking) :
    f.running? = some true ∧ f.requests = [] ∧ ∃ seen, f.seen? = some seen := by
  rw [Proper, hstage] at h
  obtain ⟨b, hcourse⟩ := h
  obtain ⟨hrunning, hempty, hrequests⟩ := course_eq_iff.mp hcourse
  obtain ⟨seen, hseen, -⟩ := Option.map_eq_some_iff.mp hempty
  exact ⟨hrunning, hrequests, seen, hseen⟩

/-- A call that has not asked has not slept. -/
theorem Fits.not_slept (h : f.Fits w duties) (hrequests : f.requests = []) : f.slept ≠ true := by
  intro hslept
  obtain ⟨c, hc⟩ := h.slept hslept
  cases hrequests.symm.trans hc

/-- What a call makes of the jobs that it saw. A request is queued if there were none, and nothing
otherwise. -/
theorem Fits.ask {seen : List Job} (h : f.Fits w duties) (hstage : f.stage = .asking)
    (hlooked : f.seen? = some seen) (hasked : Worker.ask { w with queue := seen } net = .ok net') :
    (seen = [] ∧ ∃ c, net.IsRequest c ∧ (net'.queue.drop net.queue.length) = [c]) ∨
      (seen ≠ [] ∧ w.queue ≠ [] ∧ net'.queue.drop net.queue.length = []) := by
  by_cases hseen : seen = []
  · obtain ⟨c, hc, rfl⟩ := Worker.exists_request hseen hasked
    exact .inl ⟨hseen, c, hc, by simp⟩
  · obtain rfl : net = net' :=
      Except.ok.inj ((Worker.ask_of_ne_nil hseen net).symm.trans hasked)
    refine .inr ⟨hseen, h.served (.inl hstage) ?_, by simp⟩
    simp [empty?, hlooked, hseen]

/-- A call that moves has come properly where it gets. -/
theorem Fits.moves (h : f.Fits w duties) (hm : f.Moves w net others w' net' f') :
    f'.Fits w' duties := by
  have hproper := h.proper
  cases hm with
  | enter stage alone =>
    rw [Proper, stage] at hproper
    exact ⟨hproper, h.slept, nofun, nofun, nofun, nofun⟩
  | proceed stage running =>
    rw [Proper, stage] at hproper
    obtain ⟨-, hempty, hrequests⟩ := course_eq_iff.mp hproper
    exact ⟨course_eq_iff.mpr ⟨rfl, hempty, hrequests⟩, h.slept, nofun, nofun, nofun, nofun⟩
  | refuse stage stopped =>
    rw [Proper, stage] at hproper
    obtain ⟨-, hempty, hrequests⟩ := course_eq_iff.mp hproper
    refine ⟨.inr ⟨?_, .inl (course_eq_iff.mpr ⟨rfl, hempty, hrequests⟩)⟩, h.slept, nofun, nofun,
      nofun, nofun⟩
    exact Worker.eq_shuttingDown_of_enter stopped
  | look stage =>
    rw [Proper, stage] at hproper
    obtain ⟨hrunning, -, hrequests⟩ := course_eq_iff.mp hproper
    refine ⟨⟨_, course_eq_iff.mpr ⟨hrunning, rfl, hrequests⟩⟩, h.slept, ?_, nofun, nofun, nofun⟩
    -- what it sees is what is there
    intro _ hempty hqueue
    simp [empty?, hqueue] at hempty
  | @ask seen net' stage looked asked =>
    obtain ⟨hrunning, hrequests, -⟩ := hproper.of_asking stage
    have hslept := h.not_slept hrequests
    rw [hrequests, List.nil_append]
    rcases h.ask stage looked asked with ⟨rfl, c, -, hqueued⟩ | ⟨hseen, hqueue, hqueued⟩
    · rw [hqueued]
      have hasked : HasAsked { f with stage := .taking, requests := [.ok c] } :=
        ⟨c, course_eq_iff.mpr ⟨hrunning, by simp [empty?, looked], rfl⟩⟩
      exact ⟨.inr hasked, fun h => absurd h hslept, fun _ => hasked.not_seen, nofun, nofun, nofun⟩
    · rw [hqueued]
      refine ⟨.inl (course_eq_iff.mpr ⟨hrunning, ?_, rfl⟩), fun h => absurd h hslept,
        fun _ _ => hqueue, nofun, nofun, nofun⟩
      simp [empty?, looked, hseen]
  | @fail seen e stage looked failed =>
    obtain ⟨hrunning, hrequests, -⟩ := hproper.of_asking stage
    have hempty : f.empty? = some true := by
      have hseen : seen = [] := Worker.queue_eq_nil_of_ask failed
      simp [empty?, looked, hseen]
    have hfailed : f.requests ++ [.error e] = [.error e] := by rw [hrequests, List.nil_append]
    -- it has not slept, as it had not asked
    exact ⟨.inl (course_eq_iff.mpr ⟨hrunning, hempty, hfailed⟩),
      fun hslept => absurd hslept (h.not_slept hrequests), nofun, nofun, nofun, nofun⟩
  | take stage taken =>
    rw [Proper, stage] at hproper
    exact ⟨hproper, h.slept, nofun, nofun, nofun, nofun⟩
  | miss stage empty =>
    rw [Proper, stage] at hproper
    have hqueue := Worker.queue_eq_nil_of_take empty
    rcases hproper with hserved | hasked
    · exact absurd hqueue (h.served (.inr stage) (course_eq_iff.mp hserved).2.1)
    · exact ⟨hasked, h.slept, nofun, fun _ => hqueue, nofun, nofun⟩
  | stop stage stopped =>
    rw [Proper, stage] at hproper
    exact ⟨.inr ⟨rfl, .inr hproper⟩, h.slept, nofun, nofun, nofun, nofun⟩
  | stay stage nothing =>
    rw [Proper, stage] at hproper
    obtain ⟨hqueue, hrunning⟩ := Worker.take_eq_nothing_iff.mp nothing
    exact ⟨hproper, h.slept, nofun, fun _ => hqueue, fun _ => .inl hrunning, nofun⟩
  | sleep stage =>
    rw [Proper, stage] at hproper
    have hempty : w.queue = [] := h.held (by rw [stage]; rfl)
    obtain ⟨c, hcourse⟩ := hproper
    exact ⟨⟨c, hcourse⟩, fun _ => ⟨c, (course_eq_iff.mp hcourse).2.2⟩, nofun, nofun, nofun,
      fun _ => ⟨.inl hempty, h.drowsy stage⟩⟩

/-- A call that moves takes the job that it returns from the queue, and leaves the worker as it was
otherwise. -/
theorem Moves.worker_eq (hm : f.Moves w net others w' net' f') :
    w.queue = f'.stage.job?.toList ++ w'.queue ∧ w'.running = w.running := by
  cases hm with
  | take stage taken =>
    obtain ⟨rest, hqueue, rfl⟩ := Worker.take_eq_job taken
    exact ⟨hqueue, rfl⟩
  | _ => exact ⟨rfl, rfl⟩

/-- A call that moves puts into the queue of the network what it notes, and leaves the network as it
was otherwise. -/
theorem Moves.net_eq (hm : f.Moves w net others w' net' f') :
    ∃ commands, f'.queued = f.queued ++ commands ∧
      net' = { net with queue := net.queue ++ commands } := by
  have unchanged : ∀ {g : Fetcher}, g.requests = f.requests → ∃ commands,
      g.queued = f.queued ++ commands ∧ net = { net with queue := net.queue ++ commands } := by
    intro g hg
    exact ⟨[], by simp [queued, hg], by simp⟩
  cases hm with
  | ask stage looked asked => exact ⟨_, queued_of_requests rfl, Worker.net_ask asked⟩
  | fail stage looked failed =>
    refine ⟨[], ?_, by simp⟩
    simp [queued, Except.toOption]
  | _ => exact unchanged rfl

/-- What a call queues is a request for a job. -/
theorem Moves.isRequest (hm : f.Moves w net others w' net' f') (h : f.Fits w duties)
    (hrequests : ∀ c, .ok c ∈ f.requests → net.IsRequest c) :
    ∀ c, .ok c ∈ f'.requests → net'.IsRequest c := by
  cases hm with
  | @ask seen net' stage looked asked =>
    have hnet := Worker.net_ask asked
    have hsame : ∀ {c}, net.IsRequest c → net'.IsRequest c := by
      intro c hc
      rw [hnet]
      exact hc.congr rfl rfl
    intro c hc
    rcases List.mem_append.mp hc with hc | hc
    · exact hsame (hrequests c hc)
    · rcases h.ask stage looked asked with ⟨-, c', hc', hqueued⟩ | ⟨-, -, hqueued⟩
      · rw [hqueued] at hc
        obtain rfl : c = c' := by simpa using hc
        exact hsame hc'
      · simp [hqueued] at hc
  | fail stage looked failed =>
    intro c hc
    exact hrequests c (by simpa using hc)
  | _ => exact hrequests

theorem Moves.job?_eq_none (hm : f.Moves w net others w' net' f') : f.stage.job? = none := by
  cases hm with
  | _ stage => rw [stage]; rfl

/-- What holds of all calls holds of one of them and of the others. -/
theorem forall_mem_iff {P : Fetcher → Prop} {front back : List Fetcher} :
    (∀ g ∈ front ++ f :: back, P g) ↔ P f ∧ ∀ g ∈ front ++ back, P g := by
  simp only [List.forall_mem_append, List.forall_mem_cons]
  exact and_left_comm

/-- Nobody else has its turn while a call has it. -/
theorem others_outside {front back : List Fetcher} (hinside : f.stage.isInside = true)
    (halone : (front ++ f :: back).countP (·.stage.isInside) ≤ 1) :
    ∀ g ∈ front ++ back, g.stage.isInside = false := by
  simp only [List.countP_append, List.countP_cons, hinside, if_true] at halone
  have hzero : (front ++ back).countP (·.stage.isInside) = 0 := by
    rw [List.countP_append]
    omega
  intro g hg
  simpa using List.countP_eq_zero.mp hzero g hg

/-- A call that moves is, or will be, the only one that has its turn. -/
theorem Moves.alone {front back : List Fetcher}
    (hm : f.Moves w net (front ++ back) w' net' f')
    (halone : (front ++ f :: back).countP (·.stage.isInside) ≤ 1) :
    ∀ g ∈ front ++ back, g.stage.isInside = false := by
  have hturn : f.stage.isInside = true → ∀ g ∈ front ++ back, g.stage.isInside = false :=
    fun hinside => others_outside hinside halone
  cases hm with
  | enter stage alone => exact alone
  | _ stage => exact hturn (by rw [stage]; rfl)

end Fetcher

namespace Fetchers

variable {σ : Type} {w w' : Fetchers σ}

/-- What holds of a worker and all calls for its next job at any time. -/
structure Sound (w : Fetchers σ) : Prop where
  alone : w.calls.countP (·.stage.isInside) ≤ 1
  fits : ∀ f ∈ w.calls, f.Fits w.worker w.duties
  requests : ∀ f ∈ w.calls, ∀ c, .ok c ∈ f.requests → w.net.IsRequest c
  pushed : w.pushed = w.returned ++ w.worker.queue
  returned : w.returned.Perm (w.calls.filterMap (·.stage.job?))

theorem sound_start (computation : Computation σ) (state : σ) (net : Network) :
    (start computation state net).Sound :=
  ⟨Nat.zero_le 1, fun _ hf => (List.not_mem_nil hf).elim, fun _ hf => (List.not_mem_nil hf).elim,
    rfl, .nil⟩

/-- One call becomes another that has its turn if that one had it, and returns what that one did. -/
theorem Sound.replace {duties : List Duty} {front back : List Fetcher} {f f' : Fetcher}
    (h : w.Sound) (hcalls : w.calls = front ++ f :: back)
    (hinside : f'.stage.isInside = f.stage.isInside) (hjob : f'.stage.job? = f.stage.job?)
    (hrequests : f'.requests = f.requests)
    (hfits : ∀ g ∈ front ++ f' :: back, g.Fits w.worker duties) :
    ({ w with duties := duties, calls := front ++ f' :: back } : Fetchers σ).Sound where
  alone := by
    have halone := h.alone
    rw [hcalls] at halone
    simpa [List.countP_cons, hinside] using halone
  fits := hfits
  requests := by
    have hrequested := h.requests
    rw [hcalls] at hrequested
    obtain ⟨hf, hothers⟩ := Fetcher.forall_mem_iff.mp hrequested
    exact Fetcher.forall_mem_iff.mpr ⟨hrequests ▸ hf, hothers⟩
  pushed := h.pushed
  returned := by
    have hreturned := h.returned
    rw [hcalls] at hreturned
    simpa [List.filterMap_cons, hjob] using hreturned

/-- What a call does keeps to this. -/
theorem Sound.goes (h : w.Sound) {k : Nat} (hgoes : w.Goes k w') : w'.Sound := by
  obtain ⟨front, f, back, worker, net, f', hcalls, -, hmoves, rfl⟩ := hgoes
  have halone := h.alone
  have hfits := h.fits
  have hrequests := h.requests
  have hreturned := h.returned
  rw [hcalls] at halone hfits hrequests hreturned
  obtain ⟨hf, hothers⟩ := Fetcher.forall_mem_iff.mp hfits
  obtain ⟨hasked, hothersAsked⟩ := Fetcher.forall_mem_iff.mp hrequests
  have houtside := hmoves.alone halone
  obtain ⟨hqueue, -⟩ := hmoves.worker_eq
  obtain ⟨commands, -, hnet⟩ := hmoves.net_eq
  refine ⟨?_, ?_, ?_, ?_, ?_⟩
  · have hzero : (front ++ back).countP (·.stage.isInside) = 0 :=
      List.countP_eq_zero.mpr fun g hg => by simp [houtside g hg]
    rw [List.countP_append] at hzero
    show (front ++ f' :: back).countP (·.stage.isInside) ≤ 1
    rw [List.countP_append, List.countP_cons]
    split <;> omega
  · exact Fetcher.forall_mem_iff.mpr
      ⟨hf.moves hmoves, fun g hg => (hothers g hg).of_outside (houtside g hg)⟩
  · refine Fetcher.forall_mem_iff.mpr ⟨hmoves.isRequest hf hasked, fun g hg c hc => ?_⟩
    rw [hnet]
    exact (hothersAsked g hg c hc).congr rfl rfl
  · show w.pushed = w.returned ++ f'.stage.job?.toList ++ worker.queue
    rw [List.append_assoc, ← hqueue]
    exact h.pushed
  · show (w.returned ++ f'.stage.job?.toList).Perm ((front ++ f' :: back).filterMap (·.stage.job?))
    have hnone := hmoves.job?_eq_none
    rw [List.filterMap_eq_flatMap_toList] at hreturned ⊢
    simp only [List.flatMap_append, List.flatMap_cons, hnone, Option.toList_none,
      List.nil_append] at hreturned ⊢
    refine (hreturned.append_right _).trans ?_
    rw [List.append_assoc]
    exact List.perm_append_comm.append_left _

/-- Any call may wake up. -/
theorem Sound.stir (h : w.Sound) {front back : List Fetcher} {f : Fetcher}
    (hcalls : w.calls = front ++ f :: back) :
    ({ w with calls := front ++ f.awake :: back } : Fetchers σ).Sound := by
  have hfits := h.fits
  rw [hcalls] at hfits
  obtain ⟨hf, hothers⟩ := Fetcher.forall_mem_iff.mp hfits
  exact h.replace hcalls f.isInside_awake f.job?_awake f.requests_awake
    (Fetcher.forall_mem_iff.mpr ⟨hf.awake, hothers⟩)

/-- One wakes the only call that sleeps. -/
theorem Sound.wakeOne (h : w.Sound) {done rest : List Duty} {front back : List Fetcher}
    {f : Fetcher} (hduties : w.duties = done ++ .wakeOne :: rest)
    (hcalls : w.calls = front ++ f :: back) (hasleep : f.stage.isAsleep = true) :
    ({ w with duties := done ++ rest, calls := front ++ f.awake :: back } : Fetchers σ).Sound := by
  have halone := h.alone
  have hfits := h.fits
  rw [hcalls] at halone hfits
  obtain ⟨hf, hothers⟩ := Fetcher.forall_mem_iff.mp hfits
  have houtside := Fetcher.others_outside (FetchStage.isInside_of_isAsleep hasleep) halone
  refine h.replace hcalls f.isInside_awake f.job?_awake f.requests_awake
    (Fetcher.forall_mem_iff.mpr ⟨?_, fun g hg => (hothers g hg).of_outside (houtside g hg)⟩)
  refine hf.awake.of_not_isAsleep f.isAsleep_awake ?_
  intro _ hduty
  simpa [hduties] using hduty

theorem Sound.step (h : w.Sound) (hstep : Step w w') : w'.Sound := by
  cases hstep with
  | call =>
    refine ⟨?_, ?_, ?_, h.pushed, ?_⟩
    · simpa [Fetcher.new, FetchStage.isInside] using h.alone
    · intro f hf
      rcases List.mem_append.mp hf with hf | hf
      · exact h.fits f hf
      · rw [List.mem_singleton.mp hf]
        exact Fetcher.fits_new
    · intro f hf
      rcases List.mem_append.mp hf with hf | hf
      · exact h.requests f hf
      · rw [List.mem_singleton.mp hf]
        nofun
    · simpa [Fetcher.new, FetchStage.job?] using h.returned
  | go goes => exact h.goes goes
  | stir calls => exact h.stir calls
  | push j free =>
    refine ⟨h.alone, fun f hf => (h.fits f hf).push (free f hf) j, h.requests, ?_, h.returned⟩
    show w.pushed ++ [j] = w.returned ++ (w.worker.queue ++ [j])
    rw [h.pushed, List.append_assoc]
  | stop running =>
    exact ⟨h.alone, fun f hf => (h.fits f hf).stop, h.requests, h.pushed, h.returned⟩
  | wakeOne duties calls asleep => exact h.wakeOne duties calls asleep
  | wakeNone duties nobody =>
    refine ⟨h.alone, ?_, h.requests, h.pushed, h.returned⟩
    intro f hf
    refine (h.fits f hf).of_not_isAsleep (nobody f hf) ?_
    intro _ hduty
    simpa [duties] using hduty
  | wakeAll duties free =>
    refine ⟨?_, ?_, ?_, h.pushed, ?_⟩
    · show (w.calls.map Fetcher.awake).countP (·.stage.isInside) ≤ 1
      rw [List.countP_map]
      simpa [Function.comp_def] using h.alone
    · intro g hg
      obtain ⟨f, hf, rfl⟩ := List.mem_map.mp hg
      refine (h.fits f hf).awake.of_not_isAsleep f.isAsleep_awake ?_
      -- a call that had the queue for itself would have kept them from waking anybody
      intro hdrowsy
      have hholding := free f hf
      rw [← f.isHolding_awake, hdrowsy] at hholding
      cases hholding
    · intro g hg
      obtain ⟨f, hf, rfl⟩ := List.mem_map.mp hg
      rw [f.requests_awake]
      exact h.requests f hf
    · simpa [List.filterMap_map, Function.comp_def] using h.returned
  | change => exact ⟨h.alone, fun f hf => (h.fits f hf).change _, h.requests, h.pushed,
      h.returned⟩
  | drift net config server =>
    exact ⟨h.alone, h.fits, fun f hf c hc => (h.requests f hf c hc).congr config server, h.pushed,
      h.returned⟩

/-- All of this holds after any number of steps from a new worker. -/
theorem sound_of_run {computation : Computation σ} {state : σ} {net : Network}
    (hrun : Run (start computation state net) w) : w.Sound := by
  induction hrun with
  | refl => exact sound_start computation state net
  | tail _ hstep ih => exact ih.step hstep

end Fetchers

end Parley
