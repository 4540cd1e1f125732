import Mathlib.Algebra.GroupWithZero.Nat
import Parley.Proofs.Grid.Demand

/-!
# Nobody sleeps through a job or the end of a worker

A call for the next job sleeps only while there is none and the worker runs, unless somebody is
about to wake it. After a worker was shut down nobody falls asleep any more: each call that moves
comes nearer to its end, and a call that cannot move is queued behind one that can.

- `Fetchers.Sound.exists_free`: a call does not keep the queue of jobs for itself for long.
- `Fetchers.Ended`: a worker was shut down, and those that slept were woken.
- `Fetchers.Ended.moved`, `Fetchers.Ended.exists_goes`: all calls come to an end after that.
- `Fetchers.Ended.mayFail`: a call that fails to ask after that was about to ask before.
- `Fetchers.none_sleeps_through`: the three together.
- `Fetchers.returns_own_failure`: it can be so that a call returns neither a job nor that the worker
  was shut down.
-/

namespace Parley

/-- How many moves a call is away from its end when the worker is shut down. -/
def FetchStage.patience : FetchStage → Nat
  | queued => 6
  | entered => 5
  | admitted => 4
  | asking => 3
  | taking => 2
  | missed => 1
  | drowsy | asleep | finished _ => 0

namespace Fetcher

variable {σ : Type} {w w' : Worker σ} {net net' : Network} {duties : List Duty}
  {others : List Fetcher} {f f' : Fetcher}

/-- A call has failed, or has found the worker running and is to ask for a job if there is none. -/
def MayFail (e : Error) (f : Fetcher) : Prop :=
  f.stage = .admitted ∨ f.stage = .asking ∨ f.stage = .finished (.error e)

/-- With the worker shut down a call that moves comes nearer to its end, unless it was about to fall
asleep before. -/
theorem Moves.patience_lt (hm : f.Moves w net others w' net' f') (hstopped : w.running = false)
    (hdrowsy : f.stage ≠ .drowsy) : f'.stage.patience < f.stage.patience := by
  cases hm with
  | stay stage nothing => cases hstopped.symm.trans (Worker.take_eq_nothing_iff.mp nothing).2
  | sleep stage => exact absurd stage hdrowsy
  | _ stage => rw [stage]; simp [FetchStage.patience]

/-- With the worker shut down no call gets as far as asking for a job. -/
theorem Moves.mayFail (hm : f.Moves w net others w' net' f') (hstopped : w.running = false)
    {e : Error} (he : e ≠ .shuttingDown) (hfail : f'.MayFail e) : f.MayFail e := by
  have elsewhere : ∀ {s : FetchStage}, s ≠ .admitted → s ≠ .asking → s ≠ .finished (.error e) →
      ¬(s = .admitted ∨ s = .asking ∨ s = .finished (.error e)) := by
    rintro s h₁ h₂ h₃ (h | h | h)
    · exact h₁ h
    · exact h₂ h
    · exact h₃ h
  cases hm with
  | proceed stage running =>
    rw [Worker.enter, hstopped] at running
    cases running
  | refuse stage stopped =>
    rw [Worker.eq_shuttingDown_of_enter stopped] at hfail
    refine absurd hfail (elsewhere nofun nofun ?_)
    intro h
    cases h
    exact he rfl
  | look stage => exact .inl stage
  | fail stage looked failed => exact .inr (.inl stage)
  | stop stage stopped =>
    refine absurd hfail (elsewhere nofun nofun ?_)
    intro h
    cases h
    exact he rfl
  | _ => exact absurd hfail (elsewhere nofun nofun nofun)

/-- With the worker shut down a call that has its turn can move, unless it sleeps or is about to. -/
theorem exists_moves (net : Network) (others : List Fetcher) (hfits : f.Fits w duties)
    (hstopped : w.running = false) (hinside : f.stage.isInside = true)
    (hawake : f.stage.isAsleep = false) (hdrowsy : f.stage ≠ .drowsy) :
    ∃ w' net' f', f.Moves w net others w' net' f' := by
  cases hstage : f.stage with
  | queued => rw [hstage] at hinside; cases hinside
  | entered => exact ⟨_, _, _, .refuse hstage (by rw [Worker.enter, hstopped]; rfl)⟩
  | admitted => exact ⟨_, _, _, .look hstage⟩
  | asking =>
    obtain ⟨-, -, seen, hlooked⟩ := hfits.proper.of_asking hstage
    cases hask : Worker.ask { w with queue := seen } net with
    | ok net' => exact ⟨_, _, _, .ask hstage hlooked hask⟩
    | error e => exact ⟨_, _, _, .fail hstage hlooked hask⟩
  | taking =>
    cases hqueue : w.queue with
    | nil => exact ⟨_, _, _, .miss hstage (by simp [Worker.take, hqueue, hstopped])⟩
    | cons j rest => exact ⟨_, _, _, .take hstage (by rw [Worker.take, hqueue])⟩
  | missed =>
    have hqueue : w.queue = [] := hfits.held (by rw [hstage]; rfl)
    exact ⟨_, _, _, .stop hstage (Worker.take_eq_stopped_iff.mpr ⟨hqueue, hstopped⟩)⟩
  | drowsy => exact absurd hstage hdrowsy
  | asleep => rw [hstage] at hawake; cases hawake
  | finished result => rw [hstage] at hinside; cases hinside

end Fetcher

namespace Fetchers

variable {σ : Type} {w w' : Fetchers σ}

/-- Steps after which the calls have moved `n` times, or more. -/
inductive Moved (w : Fetchers σ) : Nat → Fetchers σ → Prop
  | start : Moved w 0 w
  | go {n k : Nat} {w' w'' : Fetchers σ} : Moved w n w' → w'.Goes k w'' → Moved w (n + 1) w''
  | step {n : Nat} {w' w'' : Fetchers σ} : Moved w n w' → Step w' w'' → Moved w n w''

/-- Whoever wants the queue of jobs gets it when the call that keeps it has moved twice. -/
theorem Sound.exists_free (h : w.Sound) : ∃ n w', n ≤ 2 ∧ w.Moved n w' ∧ w'.Free := by
  by_cases hfree : w.Free
  · exact ⟨0, w, Nat.zero_le 2, .start, hfree⟩
  obtain ⟨f, hf, hholding⟩ : ∃ f ∈ w.calls, f.stage.isHolding = true := by
    simpa [Free] using hfree
  obtain ⟨front, back, hcalls⟩ := List.append_of_mem hf
  have halone := h.alone
  rw [hcalls] at halone
  -- nobody else has its turn, let alone the queue
  have hothers : ∀ {f' : Fetcher}, f'.stage.isHolding = false →
      ∀ g ∈ front ++ f' :: back, g.stage.isHolding = false := by
    intro f' hf'
    have houtside := Fetcher.others_outside (FetchStage.isInside_of_isHolding hholding) halone
    exact Fetcher.forall_mem_iff.mpr
      ⟨hf', fun g hg => FetchStage.isHolding_of_outside (houtside g hg)⟩
  cases hstage : f.stage with
  | missed =>
    have hqueue := (h.fits f hf).held hholding
    cases hrunning : w.worker.running with
    | false =>
      have stopped := Worker.take_eq_stopped_iff.mpr ⟨hqueue, hrunning⟩
      have moved := Moved.go .start
        ⟨front, f, back, _, _, _, hcalls, rfl, .stop hstage stopped, rfl⟩
      exact ⟨1, _, Nat.le_succ 1, moved, hothers rfl⟩
    | true =>
      have nothing := Worker.take_eq_nothing_iff.mpr ⟨hqueue, hrunning⟩
      have moved := Moved.go .start
        ⟨front, f, back, _, _, _, hcalls, rfl, .stay hstage nothing, rfl⟩
      have moved := moved.go ⟨front, _, back, _, _, _, rfl, rfl, .sleep rfl, rfl⟩
      exact ⟨2, _, Nat.le_refl 2, moved, hothers rfl⟩
  | drowsy =>
    have moved := Moved.go .start ⟨front, f, back, _, _, _, hcalls, rfl, .sleep hstage, rfl⟩
    exact ⟨1, _, Nat.le_succ 1, moved, hothers rfl⟩
  | _ =>
    rw [hstage] at hholding
    cases hholding

/-- A worker was shut down, and those that slept were woken. -/
structure Ended (w : Fetchers σ) : Prop where
  sound : w.Sound
  stopped : w.worker.running = false
  woken : .wakeAll ∉ w.duties

theorem Ended.ne_drowsy (h : w.Ended) {f : Fetcher} (hf : f ∈ w.calls) : f.stage ≠ .drowsy := by
  intro hstage
  rcases (h.sound.fits f hf).drowsy hstage with hrunning | hduty
  · cases h.stopped.symm.trans hrunning
  · exact h.woken hduty

/-- Nobody sleeps any more. -/
theorem Ended.not_isAsleep (h : w.Ended) {f : Fetcher} (hf : f ∈ w.calls) :
    f.stage.isAsleep = false := by
  cases hasleep : f.stage.isAsleep with
  | false => rfl
  | true =>
    rcases ((h.sound.fits f hf).asleep (FetchStage.eq_asleep hasleep)).2 with hrunning | hduty
    · cases h.stopped.symm.trans hrunning
    · exact absurd hduty h.woken

theorem Ended.awake_eq (h : w.Ended) {f : Fetcher} (hf : f ∈ w.calls) : f.awake = f :=
  Fetcher.awake_of_not_isAsleep (h.not_isAsleep hf)

/-- What can happen after the end of a worker: a call is made, or moves, or the calls stay as they
were. -/
theorem Ended.step_cases (h : w.Ended) (hstep : Step w w') :
    w'.calls = w.calls ++ [.new] ∨ (∃ k, w.Goes k w') ∨ w'.calls = w.calls := by
  cases hstep with
  | call => exact .inl rfl
  | go goes => exact .inr (.inl ⟨_, goes⟩)
  | @stir front back f calls =>
    have hf : f ∈ w.calls := by simp [calls]
    refine .inr (.inr ?_)
    show front ++ f.awake :: back = w.calls
    rw [h.awake_eq hf, calls]
  | @wakeOne done rest front back f duties calls asleep =>
    have hf : f ∈ w.calls := by simp [calls]
    cases (h.not_isAsleep hf).symm.trans asleep
  | wakeAll duties free =>
    refine .inr (.inr ?_)
    show w.calls.map Fetcher.awake = w.calls
    exact (List.map_congr_left fun f hf => h.awake_eq hf).trans (List.map_id _)
  | _ => exact .inr (.inr rfl)

theorem Ended.step (h : w.Ended) (hstep : Step w w') : w'.Ended := by
  refine ⟨h.sound.step hstep, ?_, ?_⟩
  · cases hstep with
    | go goes =>
      obtain ⟨front, f, back, worker, net, f', -, -, hmoves, rfl⟩ := goes
      exact hmoves.worker_eq.2.trans h.stopped
    | stop running => cases h.stopped.symm.trans running
    | _ => exact h.stopped
  · have hwoken := h.woken
    cases hstep with
    | go goes =>
      obtain ⟨front, f, back, worker, net, f', -, -, -, rfl⟩ := goes
      exact hwoken
    | stop running => cases h.stopped.symm.trans running
    | push j free => simpa using hwoken
    | wakeOne duties calls asleep =>
      rw [duties] at hwoken
      simpa using hwoken
    | wakeNone duties nobody =>
      rw [duties] at hwoken
      simpa using hwoken
    | wakeAll duties free => simp [duties] at hwoken
    | _ => exact hwoken

/-! ## All calls come to an end -/

/-- How many moves all calls together are away from their ends at most. -/
def patience (w : Fetchers σ) : Nat :=
  (w.calls.map (·.stage.patience)).sum

theorem patience_le (w : Fetchers σ) : w.patience ≤ 6 * w.calls.length := by
  unfold patience
  induction w.calls with
  | nil => exact Nat.le_refl 0
  | cons f rest ih =>
    have hfirst : f.stage.patience ≤ 6 := by cases f.stage <;> simp [FetchStage.patience]
    rw [List.map_cons, List.sum_cons, List.length_cons]
    omega

theorem Ended.patience_goes (h : w.Ended) {k : Nat} (hgoes : w.Goes k w') :
    w'.patience < w.patience ∧ w'.calls.length = w.calls.length := by
  obtain ⟨front, f, back, worker, net, f', hcalls, -, hmoves, rfl⟩ := hgoes
  have hlt := hmoves.patience_lt h.stopped (h.ne_drowsy (by simp [hcalls]))
  unfold patience
  rw [hcalls]
  simp only [List.map_append, List.map_cons, List.sum_append, List.sum_cons, List.length_append,
    List.length_cons, and_true]
  omega

/-- A call moves six times at most after the end of the worker. -/
theorem Ended.moved (h : w.Ended) {n : Nat} (hmoved : w.Moved n w') :
    w'.Ended ∧ n + w'.patience ≤ 6 * w'.calls.length := by
  induction hmoved with
  | start => exact ⟨h, by simpa using w.patience_le⟩
  | go _ hgoes ih =>
    obtain ⟨hended, hle⟩ := ih
    obtain ⟨hlt, hlength⟩ := hended.patience_goes hgoes
    refine ⟨hended.step (.go hgoes), ?_⟩
    omega
  | @step n w' w'' _ hstep ih =>
    obtain ⟨hended, hle⟩ := ih
    refine ⟨hended.step hstep, ?_⟩
    rcases hended.step_cases hstep with hcalls | ⟨k, hgoes⟩ | hcalls
    · have hpatience : w''.patience = w'.patience + 6 := by
        simp [patience, hcalls, Fetcher.new, FetchStage.patience]
      rw [hcalls, List.length_append, List.length_singleton]
      omega
    · obtain ⟨hlt, hlength⟩ := hended.patience_goes hgoes
      omega
    · have hpatience : w''.patience = w'.patience := by rw [patience, hcalls, patience]
      rw [hcalls]
      omega

theorem exists_split {calls : List Fetcher} {k : Nat} {f : Fetcher} (h : calls[k]? = some f) :
    ∃ front back, calls = front ++ f :: back ∧ front.length = k := by
  obtain ⟨hlt, rfl⟩ := List.getElem?_eq_some_iff.mp h
  refine ⟨calls.take k, calls.drop (k + 1), ?_, ?_⟩
  · rw [← List.drop_eq_getElem_cons hlt, List.take_append_drop]
  · rw [List.length_take, Nat.min_eq_left (Nat.le_of_lt hlt)]

theorem goes_of_moves {front back : List Fetcher} {f f' : Fetcher} {worker : Worker σ}
    {net : Network} (hcalls : w.calls = front ++ f :: back)
    (hmoves : f.Moves w.worker w.net (front ++ back) worker net f') :
    ∃ w', w.Goes front.length w' :=
  ⟨_, front, f, back, worker, net, f', hcalls, rfl, hmoves, rfl⟩

/-- The call that has its turn can move. -/
theorem Ended.exists_goes_inside (h : w.Ended) {f : Fetcher} (hf : f ∈ w.calls)
    (hinside : f.stage.isInside = true) : ∃ k w', w.Goes k w' := by
  obtain ⟨front, back, hcalls⟩ := List.append_of_mem hf
  obtain ⟨worker, net, f', hmoves⟩ := Fetcher.exists_moves w.net (front ++ back)
    (h.sound.fits f hf) h.stopped hinside (h.not_isAsleep hf) (h.ne_drowsy hf)
  obtain ⟨w', hgoes⟩ := goes_of_moves hcalls hmoves
  exact ⟨_, w', hgoes⟩

/-- A call that is not over can move, or is queued behind one that can. -/
theorem Ended.exists_goes (h : w.Ended) {k : Nat} {f : Fetcher} (hf : w.calls[k]? = some f)
    (hover : f.stage.isOver = false) :
    (∃ w', w.Goes k w') ∨ (f.stage = .queued ∧ ∃ i w', w.Goes i w') := by
  have hmem := List.mem_of_getElem? hf
  obtain ⟨front, back, hcalls, rfl⟩ := exists_split hf
  by_cases hqueued : f.stage = .queued
  · by_cases hother : ∃ g ∈ front ++ back, g.stage.isInside = true
    · obtain ⟨g, hg, hinside⟩ := hother
      have hg : g ∈ w.calls := by
        rw [hcalls]
        rcases List.mem_append.mp hg with hg | hg
        · exact List.mem_append_left _ hg
        · exact List.mem_append_right _ (List.mem_cons_of_mem _ hg)
      exact .inr ⟨hqueued, h.exists_goes_inside hg hinside⟩
    · have halone : ∀ g ∈ front ++ back, g.stage.isInside = false :=
        fun g hg => Bool.eq_false_iff.mpr fun hinside => hother ⟨g, hg, hinside⟩
      exact .inl (goes_of_moves hcalls (.enter hqueued halone))
  · have hinside : f.stage.isInside = true := by
      cases hstage : f.stage with
      | queued => exact absurd hstage hqueued
      | finished result => rw [hstage] at hover; cases hover
      | _ => rfl
    obtain ⟨worker, net, f', hmoves⟩ := Fetcher.exists_moves w.net (front ++ back)
      (h.sound.fits f hmem) h.stopped hinside (h.not_isAsleep hmem) (h.ne_drowsy hmem)
    exact .inl (goes_of_moves hcalls hmoves)

/-! ## What they return -/

/-- One call of a list becomes another. -/
theorem getElem?_replaced {front back : List Fetcher} {f f' g : Fetcher} {k : Nat}
    (h : (front ++ f' :: back)[k]? = some g) :
    (front.length = k ∧ g = f') ∨ (front ++ f :: back)[k]? = some g := by
  rcases Nat.lt_trichotomy k front.length with hlt | heq | hgt
  · rw [List.getElem?_append_left hlt] at h ⊢
    exact .inr h
  · subst heq
    simp only [List.getElem?_append_right (Nat.le_refl _), Nat.sub_self, List.getElem?_cons_zero,
      Option.some.injEq] at h
    exact .inl ⟨rfl, h.symm⟩
  · obtain ⟨i, hi⟩ := Nat.exists_eq_add_of_lt hgt
    have hsub : k - front.length = i + 1 := by omega
    rw [List.getElem?_append_right (Nat.le_of_lt hgt), hsub, List.getElem?_cons_succ] at h ⊢
    exact .inr h

/-- No call comes to ask for a job after the end of the worker. -/
theorem Ended.mayFail_step (h : w.Ended) (hstep : Step w w') {e : Error} (he : e ≠ .shuttingDown)
    {k : Nat} {f' : Fetcher} (hf' : w'.calls[k]? = some f') (hfail : f'.MayFail e) :
    ∃ f, w.calls[k]? = some f ∧ f.MayFail e := by
  rcases h.step_cases hstep with hcalls | ⟨i, hgoes⟩ | hcalls
  · rw [hcalls] at hf'
    by_cases hlt : k < w.calls.length
    · rw [List.getElem?_append_left hlt] at hf'
      exact ⟨f', hf', hfail⟩
    · -- the call that was made has not begun
      have hnew := List.mem_of_getElem? (List.getElem?_append_right (Nat.le_of_not_lt hlt) ▸ hf')
      rw [List.mem_singleton.mp hnew] at hfail
      rcases hfail with hfail | hfail | hfail <;> cases hfail
  · obtain ⟨front, f, back, worker, net, g, hcalls, -, hmoves, rfl⟩ := hgoes
    rcases getElem?_replaced (f := f) hf' with ⟨rfl, rfl⟩ | hf'
    · exact ⟨f, by simp [hcalls], hmoves.mayFail h.stopped he hfail⟩
    · rw [← hcalls] at hf'
      exact ⟨f', hf', hfail⟩
  · rw [hcalls] at hf'
    exact ⟨f', hf', hfail⟩

theorem Ended.mayFail (h : w.Ended) {n : Nat} (hmoved : w.Moved n w') {e : Error}
    (he : e ≠ .shuttingDown) {k : Nat} {f' : Fetcher} (hf' : w'.calls[k]? = some f')
    (hfail : f'.MayFail e) : ∃ f, w.calls[k]? = some f ∧ f.MayFail e := by
  induction hmoved generalizing f' with
  | start => exact ⟨f', hf', hfail⟩
  | go hmoved hgoes ih =>
    obtain ⟨g, hg, hgfail⟩ := (h.moved hmoved).1.mayFail_step (.go hgoes) he hf' hfail
    exact ih hg hgfail
  | step hmoved hstep ih =>
    obtain ⟨g, hg, hgfail⟩ := (h.moved hmoved).1.mayFail_step hstep he hf' hfail
    exact ih hg hgfail

/-- A call that ends in an error after the end of the worker is told so, or its own request could
not be sent, which it was about to send when the worker was shut down. -/
theorem Ended.error_cases (h : w.Ended) {n : Nat} (hmoved : w.Moved n w') {k : Nat} {f : Fetcher}
    (hf : w'.calls[k]? = some f) {e : Error} (hover : f.stage = .finished (.error e)) :
    e = .shuttingDown ∨
      (f.requests = [.error e] ∧ ∃ g, w.calls[k]? = some g ∧ g.MayFail e) := by
  by_cases he : e = .shuttingDown
  · exact .inl he
  · have hproper := ((h.moved hmoved).1.sound.fits f (List.mem_of_getElem? hf)).proper
    rw [Fetcher.Proper, hover] at hproper
    rcases hproper with hfailed | ⟨hend, -⟩
    · have hrequests : f.requests = [.error e] := (Fetcher.course_eq_iff.mp hfailed).2.2
      exact .inr ⟨hrequests, h.mayFail hmoved he hf (.inr (.inr hover))⟩
    · exact absurd hend he

/-- One call sleeps at most. While it does there is no job, unless somebody who pushed one is about
to wake it, and the worker runs, unless somebody who stopped it is about to wake everybody; whoever
is about to push a job or to wake everybody gets the queue of jobs after two moves at most. After
everybody was woken a call moves six times at most, and while it is not over it can move, or is
queued behind one that can: it returns a job, or that the worker was shut down, or why its own
request for a job, which it was about to send when the worker was shut down, could not be sent. -/
theorem none_sleeps_through {computation : Computation σ} {state : σ} {net : Network}
    (hrun : Run (start computation state net) w) :
    w.calls.countP (·.stage.isAsleep) ≤ 1 ∧
      (∀ f ∈ w.calls, f.stage = .asleep →
        (w.worker.queue = [] ∨ .wakeOne ∈ w.duties) ∧
          (w.worker.running = true ∨ .wakeAll ∈ w.duties)) ∧
      (∃ n w', n ≤ 2 ∧ w.Moved n w' ∧ w'.Free) ∧
      (w.worker.running = false → .wakeAll ∉ w.duties → ∀ n w', w.Moved n w' →
        n ≤ 6 * w'.calls.length ∧
          ∀ (k : Nat) (f : Fetcher), w'.calls[k]? = some f →
            (f.stage.isOver = false →
              (∃ w'', w'.Goes k w'') ∨ (f.stage = .queued ∧ ∃ i w'', w'.Goes i w'')) ∧
            ∀ e, f.stage = .finished (.error e) → e = .shuttingDown ∨
              (f.requests = [.error e] ∧ ∃ g, w.calls[k]? = some g ∧ g.MayFail e)) := by
  have hsound := sound_of_run hrun
  refine ⟨?_, fun f hf => (hsound.fits f hf).asleep, hsound.exists_free, ?_⟩
  · have hinside : ∀ f ∈ w.calls, f.stage.isAsleep = true → f.stage.isInside = true :=
      fun f _ => FetchStage.isInside_of_isAsleep
    exact Nat.le_trans (List.countP_mono_left hinside) hsound.alone
  · intro hstopped hwoken n w' hmoved
    have hended : w.Ended := ⟨hsound, hstopped, hwoken⟩
    obtain ⟨hended', hle⟩ := hended.moved hmoved
    refine ⟨by omega, ?_⟩
    intro k f hf
    exact ⟨hended'.exists_goes hf, fun e => hended.error_cases hmoved hf⟩

/-- A worker that was shut down while one call slept and another was queued behind it. -/
def abandoned (computation : Computation σ) (state : σ) : Fetchers σ :=
  ⟨(Worker.new computation state).stop, visited, [asker .taking true, .new], [], [], []⟩

theorem run_shutdown (computation : Computation σ) (state : σ) :
    Run (start computation state visitor) (abandoned computation state) := by
  have run := (run_asleep computation state).tail (.call _)
  have run := run.tail (.stop rfl)
  exact run.tail (.wakeAll (show _ = [] ++ Duty.wakeAll :: [] from rfl)
    (by simp [Free, FetchStage.isHolding, Fetcher.new, asker]))

/-- Both calls return then that it was shut down. -/
theorem moved_shutdown (computation : Computation σ) (state : σ) :
    Moved (abandoned computation state) 4 { abandoned computation state with
      calls := [asker (.finished (.error .shuttingDown)) true,
        ⟨.finished (.error .shuttingDown), some false, none, [], false⟩] } := by
  have moved := Moved.start (w := abandoned computation state)
  have moved := moved.go ⟨[], _, [.new], _, _, _, rfl, rfl, .miss rfl nofun, rfl⟩
  have moved := moved.go ⟨[], _, [.new], _, _, _, rfl, rfl, .stop rfl rfl, rfl⟩
  have alone : ∀ g ∈ [asker (.finished (.error .shuttingDown)) true], g.stage.isInside = false := by
    simp [asker, FetchStage.isInside]
  have moved := moved.go ⟨[_], .new, [], _, _, _, rfl, rfl, .enter rfl alone, rfl⟩
  exact moved.go ⟨[_], _, [], _, _, _, rfl, rfl, .refuse rfl rfl, rfl⟩

/-- Neither sleeps, nor has failed to ask. -/
theorem both_return_on_shutdown :
    ∃ w w' : Fetchers Unit, Run (start fruitless () visitor) w ∧ w.worker.running = false ∧
      .wakeAll ∉ w.duties ∧ w.Moved 4 w' ∧
      w'.calls.map (·.stage) = List.replicate 2 (.finished (.error .shuttingDown)) ∧
      w.calls.countP (·.stage.isAsleep) ≤ 1 ∧ 4 ≤ 6 * w'.calls.length ∧
      ∀ (k : Nat) (f : Fetcher), w'.calls[k]? = some f → ∀ e, f.stage = .finished (.error e) →
        e = .shuttingDown ∨
          (f.requests = [.error e] ∧ ∃ g, w.calls[k]? = some g ∧ g.MayFail e) := by
  obtain ⟨hone, -, -, hended⟩ := none_sleeps_through (run_shutdown fruitless ())
  obtain ⟨hmoves, hcalls⟩ := hended rfl nofun 4 _ (moved_shutdown fruitless ())
  exact ⟨_, _, run_shutdown fruitless (), rfl, nofun, moved_shutdown fruitless (), rfl, hone,
    hmoves, fun k f hf => (hcalls k f hf).2⟩

/-- A worker and its network that were shut down just after a call had found no job. -/
def forsaken : Fetchers Unit :=
  ⟨(Worker.new fruitless ()).stop, visitor.stop, [⟨.asking, some true, some [], [], false⟩], [], [],
    []⟩

/-- All that sleep were woken. What the call returns then is neither a job nor that the worker was
shut down, but that its request could not be sent. -/
theorem returns_own_failure :
    Run (start fruitless () visitor) forsaken ∧ forsaken.worker.running = false ∧
      forsaken.duties = [] ∧
      ∃ w, forsaken.Goes 0 w ∧ w.calls.map (·.stage) = [.finished (.error .networkShutdown)] := by
  have run := (run_looked fruitless ()).tail (.stop rfl)
  have run := run.tail (.wakeAll (show _ = [] ++ Duty.wakeAll :: [] from rfl)
    (by simp [Free, FetchStage.isHolding]))
  have run := run.tail (.drift visitor.stop rfl rfl)
  exact ⟨run, rfl, rfl, _, ⟨[], _, [], _, _, _, rfl, rfl, .fail rfl rfl rfl, rfl⟩, rfl⟩

end Fetchers

end Parley
