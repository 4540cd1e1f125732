import Parley.Proofs.Response.Steps

/-!
# What a sleeping loop leaves undone

A loop sleeps while its signal is lowered. An event that is fulfilled after it was added raises the
signal, and so does one that is added after it was fulfilled. An event that gets its value in between,
after it was looked at and before it joins the queue, raises the signal too early: the loop may look
at the queue, find nothing, and sleep again before the event is there.

- `Threads.Watched`: why a handler that is stopped, or has a fulfilled head, is not asleep.
- `Threads.asleep_iff`: with nobody else at work, the head of a sleeping loop is fulfilled exactly if
  it was overlooked, and the handler of a sleeping loop is stopped exactly if the loop was started
  after that.
- `Threads.sleeps_on_work`: both happen.
-/

namespace Parley

namespace Threads

variable {α : Type} {home : Nat → Nat}

/-! ## Why a handler with work to do is not asleep -/

/-- The signal of a handler is raised, or some thread is about to raise it. -/
def Roused (w : Threads α) (h : Nat) (x : ResponseHandler) : Prop :=
  x.raised = true ∨ ∃ t ∈ w.tasks, t.Rouses w.responses h

theorem Roused.mono {w w' : Threads α} {h : Nat} {x : ResponseHandler} (hroused : Roused w h x)
    (hwoken : ∀ e, w'.responses.wokenBy e = w.responses.wokenBy e)
    (htasks : ∀ t ∈ w.tasks, t ∈ w'.tasks) : Roused w' h x := by
  rcases hroused with hraised | ⟨t, ht, hrouses⟩
  · exact .inl hraised
  · refine .inr ⟨t, htasks t ht, ?_⟩
    cases t with
    | raise i => exact hrouses
    | notify e => exact (hwoken e).trans hrouses
    | _ => exact hrouses.elim

/-- What holds of a handler and its loop. -/
structure Watched (w : Threads α) (h : Nat) (x : ResponseHandler) : Prop where
  queued : ∀ e ∈ x.queue, w.responses.wokenBy e = some h
  restarted : h ∈ w.restarted → x.stopped = true
  /-- A loop that runs on a stopped handler is to see so, unless it was started on it. -/
  stopped : x.stopped = true →
    h ∈ w.restarted ∨ Roused w h x ∨ w.loop h = .idle ∨ w.loop h = .woken
  /-- A fulfilled head is to be taken out, unless it was missed. -/
  head : ∀ e, x.queue.head? = some e → w.responses.isFulfilled e = true →
    e ∈ w.missed ∨ x.stopped = true ∨ Roused w h x ∨ (w.loop h).looks

theorem watched_start {handlers h : Nat} {x : ResponseHandler}
    (hx : (start handlers : Threads α).responses.handlers[h]? = some x) :
    Watched (start handlers : Threads α) h x := by
  have hnew : x = .new := List.eq_of_mem_replicate (List.mem_of_getElem? hx)
  subst hnew
  exact ⟨nofun, nofun, nofun, nofun⟩

/-- Threads that begin something, and loops of other handlers, leave a handler as it was. -/
theorem Watched.of_same {w w' : Threads α} {h : Nat} {x : ResponseHandler} (hw : Watched w h x)
    (hwoken : ∀ e, w'.responses.wokenBy e = w.responses.wokenBy e)
    (hfulfilled : ∀ e, w'.responses.isFulfilled e = w.responses.isFulfilled e)
    (htasks : ∀ t ∈ w.tasks, t ∈ w'.tasks) (hloop : w'.loop h = w.loop h)
    (hmissed : w'.missed = w.missed) (hrestarted : h ∈ w'.restarted ↔ h ∈ w.restarted) :
    Watched w' h x := by
  have hroused : Roused w h x → Roused w' h x := fun hold => hold.mono hwoken htasks
  refine ⟨?_, ?_, ?_, ?_⟩
  · intro e he
    rw [hwoken]
    exact hw.queued e he
  · rw [hrestarted]
    exact hw.restarted
  · rw [hrestarted, hloop]
    exact fun hstopped => (hw.stopped hstopped).imp_right (.imp_left hroused)
  · intro e he hful
    rw [hfulfilled] at hful
    rw [hmissed, hloop]
    exact (hw.head e he hful).imp_right (.imp_right (.imp_left hroused))

/-- A handler is roused until its signal is raised, and then its loop has to lower it. -/
theorem Roused.act {w : Threads α} (hs : Sound home w) {front back : List (Todo α)} {t : Todo α}
    (h : w.tasks = front ++ t :: back) {handler : Nat} {x x' : ResponseHandler}
    (hmoves : t.Moves w.responses handler x x') (hroused : Roused w handler x) :
    Roused { w with
      responses := (t.act w.responses).1
      tasks := front ++ (t.act w.responses).2.toList ++ back
      missed := t.misses w.tasks ++ w.missed } handler x' := by
  have ht : t ∈ w.tasks := by
    rw [h]
    exact List.mem_append_right _ List.mem_cons_self
  rcases hroused with hraised | ⟨u, hu, hrouses⟩
  · exact .inl (hmoves.raised hraised)
  · rcases mem_act_of_mem h hu with rfl | hstill
    · exact .inl (hmoves.rouses hrouses)
    · refine .inr ⟨u, hstill, ?_⟩
      cases u with
      | raise i => exact hrouses
      | notify e => exact hs.wokenBy_act ht hrouses
      | _ => exact hrouses.elim

theorem Watched.act {w : Threads α} (hs : Sound home w) {front back : List (Todo α)} {t : Todo α}
    (h : w.tasks = front ++ t :: back) {handler : Nat} {x x' : ResponseHandler}
    (hmoves : t.Moves w.responses handler x x') (hw : Watched w handler x) :
    Watched { w with
      responses := (t.act w.responses).1
      tasks := front ++ (t.act w.responses).2.toList ++ back
      missed := t.misses w.tasks ++ w.missed } handler x' := by
  have ht : t ∈ w.tasks := by
    rw [h]
    exact List.mem_append_right _ List.mem_cons_self
  have hknown := hs.known t ht
  have hroused := Roused.act hs h hmoves
  refine ⟨?_, ?_, ?_, ?_⟩
  · intro e he
    refine hs.wokenBy_act ht ?_
    rcases hmoves.queue with hsame | ⟨e', found, rfl, hqueue⟩
    · rw [hsame] at he
      exact hw.queued e he
    · rw [hqueue] at he
      rcases List.mem_append.mp he with hold | hnew
      · exact hw.queued e hold
      · rw [List.mem_singleton.mp hnew]
        exact hknown
  · intro hrestarted
    exact hmoves.stopped.mpr (.inl (hw.restarted hrestarted))
  · intro hstopped
    rcases hmoves.stopped.mp hstopped with hold | rfl
    · exact (hw.stopped hold).imp_right (.imp_left hroused)
    · -- the thread that stops the handler raises the signal next
      exact .inr (.inl (.inr ⟨.raise handler, mem_act_of_next rfl, rfl⟩))
  · intro e he hful
    have hold : x.queue.head? = some e → e ∈ t.misses w.tasks ++ w.missed ∨ x'.stopped = true ∨
        Roused { w with
          responses := (t.act w.responses).1
          tasks := front ++ (t.act w.responses).2.toList ++ back
          missed := t.misses w.tasks ++ w.missed } handler x' ∨ (w.loop handler).looks := by
      intro he
      cases hbefore : w.responses.isFulfilled e with
      | true =>
        rcases hw.head e he hbefore with hmissed | hstopped | hrest
        · exact .inl (List.mem_append_right _ hmissed)
        · exact .inr (.inl (hmoves.stopped.mpr (.inl hstopped)))
        · exact .inr (.inr (hrest.imp_left hroused))
      | false =>
        -- the first value has just been stored, and the thread wakes the handler next
        rcases (t.isFulfilled_act w.responses e).mp hful with hful | ⟨v, rfl, hlt⟩
        · rw [hbefore] at hful
          cases hful
        · refine .inr (.inr (.inl (.inr ⟨.notify e, mem_act_of_next ?_, ?_⟩)))
          · simp [Todo.act, hbefore]
          · exact hs.wokenBy_act ht (hw.queued e (List.mem_of_head? he))
    rcases hmoves.queue with hsame | ⟨e', found, rfl, hqueue⟩
    · rw [hsame] at he
      exact hold he
    · cases hempty : x.queue with
      | cons e₀ queue =>
        rw [hqueue, hempty] at he
        rw [hempty] at hold
        exact hold he
      | nil =>
        rw [hqueue, hempty] at he
        cases he
        cases found with
        | true => exact .inr (.inr (.inl (.inr ⟨.raise handler, mem_act_of_next rfl, rfl⟩)))
        | false => exact .inl (List.mem_append_right _ (hs.overlooked _ ht e rfl hful))

/-- Where the loop goes on draining, or to sleep, a stopped handler is roused as it was before. -/
theorem Watched.stopped_at_work {w : Threads α} {h : Nat} {x : ResponseHandler}
    (hw : Watched w h x) (hidle : w.loop h ≠ .idle) (hwoken : w.loop h ≠ .woken)
    (hstopped : x.stopped = true) : h ∈ w.restarted ∨ Roused w h x :=
  (hw.stopped hstopped).imp_right fun hrest =>
    hrest.resolve_right fun hloop => hloop.elim hidle hwoken

/-! ## The steps of a handler's own loop -/

section Loop

variable {w : Threads α} {h : Nat} {x : ResponseHandler}

theorem looks_update (w : Threads α) (h : Nat) {l : HandlerLoop} (hl : l.looks) :
    (Function.update w.loop h l h).looks := by
  rw [Function.update_self]
  exact hl

theorem Watched.run (hw : Watched w h x) (hidle : w.loop h = .idle) :
    Watched { w with
      loop := Function.update w.loop h .waiting
      restarted := (if x.stopped then [h] else []) ++ w.restarted } h x := by
  refine ⟨hw.queued, ?_, ?_, ?_⟩
  · intro hrestarted
    by_cases hstopped : x.stopped = true
    · exact hstopped
    · rw [if_neg hstopped] at hrestarted
      exact hw.restarted hrestarted
  · intro hstopped
    refine .inl (List.mem_append_left _ ?_)
    rw [if_pos hstopped]
    exact List.mem_singleton_self h
  · intro e he hful
    have hbefore := hw.head e he hful
    rw [hidle] at hbefore
    exact hbefore.imp_right (.imp_right (.imp_right nofun))

theorem Watched.wake (hw : Watched w h x) :
    Watched { w with
      responses := w.responses.lower h
      loop := Function.update w.loop h .woken } h { x with raised := false } := by
  refine ⟨hw.queued, hw.restarted, fun _ => ?_, fun _ _ _ => ?_⟩
  · exact .inr (.inr (.inr (Function.update_self _ _ _)))
  · exact .inr (.inr (.inr (looks_update w h trivial)))

theorem Watched.leave (hw : Watched w h x) (hstopped : x.stopped = true) :
    Watched { w with loop := Function.update w.loop h .idle } h x := by
  refine ⟨hw.queued, hw.restarted, fun _ => ?_, fun _ _ _ => .inr (.inl hstopped)⟩
  exact .inr (.inr (.inl (Function.update_self _ _ _)))

theorem Watched.enter (hw : Watched w h x) (hstopped : x.stopped = false) :
    Watched { w with loop := Function.update w.loop h .draining } h x := by
  refine ⟨hw.queued, hw.restarted, fun hcontra => ?_, fun _ _ _ => ?_⟩
  · rw [hstopped] at hcontra
    cases hcontra
  · exact .inr (.inr (.inr (looks_update w h trivial)))

theorem Watched.pop (hw : Watched w h x) (hdraining : w.loop h = .draining) (event : Nat) :
    Watched { w with
      responses := w.responses.popHead h
      loop := Function.update w.loop h (.running event) } h { x with queue := x.queue.tail } := by
  refine ⟨?_, hw.restarted, fun hstopped => ?_, fun _ _ _ => ?_⟩
  · intro e he
    exact hw.queued e (List.mem_of_mem_tail he)
  · have hstill := hw.stopped_at_work (by simp [hdraining]) (by simp [hdraining]) hstopped
    exact hstill.imp_right .inl
  · exact .inr (.inr (.inr (looks_update w h trivial)))

theorem Watched.process (hw : Watched w h x) {event : Nat} (hrunning : w.loop h = .running event) :
    Watched { w with
      responses := w.responses.process event
      loop := Function.update w.loop h .draining } h x := by
  have hwoken := w.responses.wokenBy_process event
  refine ⟨?_, hw.restarted, fun hstopped => ?_, fun _ _ _ => ?_⟩
  · intro e he
    rw [hwoken]
    exact hw.queued e he
  · have hstill := hw.stopped_at_work (by simp [hrunning]) (by simp [hrunning]) hstopped
    exact hstill.imp_right fun hroused => .inl (hroused.mono hwoken fun _ => id)
  · exact .inr (.inr (.inr (looks_update w h trivial)))

/-- The loop sleeps with an unfulfilled head, or with none. -/
theorem Watched.rest (hw : Watched w h x) (hx : w.responses.handlers[h]? = some x)
    (hdraining : w.loop h = .draining) (hhead : w.responses.head? h = none) :
    Watched { w with loop := Function.update w.loop h .waiting } h x := by
  refine ⟨hw.queued, hw.restarted, fun hstopped => ?_, ?_⟩
  · have hstill := hw.stopped_at_work (by simp [hdraining]) (by simp [hdraining]) hstopped
    exact hstill.imp_right .inl
  · intro e he hful
    have hful : w.responses.isFulfilled e = true := hful
    simp [Responses.head?, hx, he, hful] at hhead

end Loop

theorem Watched.step {w w' : Threads α} (hs : Sound home w) {h : Nat} {x : ResponseHandler}
    (hx : w.responses.handlers[h]? = some x) (hw : Watched w h x) (step : Step home w w') :
    ∃ x', w'.responses.handlers[h]? = some x' ∧ Watched w' h x' := by
  have hmodify := fun i f => Responses.getElem?_modify_of_some hx i f
  have hother : ∀ {i : Nat} {l : HandlerLoop}, ¬ i = h → Function.update w.loop i l h = w.loop h :=
    fun hi => Function.update_of_ne (Ne.symm hi) _ _
  -- a step of a loop is one of the handler's own, or leaves the handler as it was
  cases step with
  | create hooked =>
    refine ⟨x, hx, hw.of_same ?_ ?_ (fun _ => id) rfl rfl .rfl⟩
    · exact w.responses.wokenBy_addEvent hooked
    · exact w.responses.isFulfilled_addEvent hooked
  | add _ | respond _ _ | stop _ =>
    exact ⟨x, hx, hw.of_same (fun _ => rfl) (fun _ => rfl) (fun _ => List.mem_cons_of_mem _) rfl rfl
      .rfl⟩
  | @act front back t ht =>
    obtain ⟨x', hx', hmoves⟩ := Todo.exists_moves hx t
    exact ⟨x', hx', hw.act hs ht hmoves⟩
  | @run i y hidle hy =>
    refine ⟨x, hx, ?_⟩
    by_cases hi : i = h
    · subst hi
      cases hx.symm.trans hy
      exact hw.run hidle
    · refine hw.of_same (fun _ => rfl) (fun _ => rfl) (fun _ => id) (hother hi) rfl ?_
      show h ∈ (if y.stopped then [i] else []) ++ w.restarted ↔ _
      rw [List.mem_append]
      refine ⟨fun hmem => hmem.resolve_left ?_, .inr⟩
      split
      · exact fun hmem => hi (List.mem_singleton.mp hmem).symm
      · exact nofun
  | @wake i y hwaiting hy hraised =>
    refine ⟨_, hmodify i _, ?_⟩
    by_cases hi : i = h
    · subst hi
      rw [if_pos rfl]
      exact hw.wake
    · rw [if_neg hi]
      exact hw.of_same (fun _ => rfl) (fun _ => rfl) (fun _ => id) (hother hi) rfl .rfl
  | @leave i y hwoken hy hstopped =>
    refine ⟨x, hx, ?_⟩
    by_cases hi : i = h
    · subst hi
      cases hx.symm.trans hy
      exact hw.leave hstopped
    · exact hw.of_same (fun _ => rfl) (fun _ => rfl) (fun _ => id) (hother hi) rfl .rfl
  | @enter i y hwoken hy hstopped =>
    refine ⟨x, hx, ?_⟩
    by_cases hi : i = h
    · subst hi
      cases hx.symm.trans hy
      exact hw.enter hstopped
    · exact hw.of_same (fun _ => rfl) (fun _ => rfl) (fun _ => id) (hother hi) rfl .rfl
  | @pop i e hdraining hhead =>
    refine ⟨_, hmodify i _, ?_⟩
    by_cases hi : i = h
    · subst hi
      rw [if_pos rfl]
      exact hw.pop hdraining e
    · rw [if_neg hi]
      exact hw.of_same (fun _ => rfl) (fun _ => rfl) (fun _ => id) (hother hi) rfl .rfl
  | @process i e hrunning =>
    refine ⟨x, by rw [Responses.handlers_process, hx], ?_⟩
    by_cases hi : i = h
    · subst hi
      exact hw.process hrunning
    · exact hw.of_same (w.responses.wokenBy_process e) (w.responses.isFulfilled_process e)
        (fun _ => id) (hother hi) rfl .rfl
  | @rest i hdraining hhead =>
    refine ⟨x, hx, ?_⟩
    by_cases hi : i = h
    · subst hi
      exact hw.rest hx hdraining hhead
    · exact hw.of_same (fun _ => rfl) (fun _ => rfl) (fun _ => id) (hother hi) rfl .rfl

theorem Step.length_handlers {w w' : Threads α} (step : Step home w w') :
    w'.responses.handlers.length = w.responses.handlers.length := by
  cases step with
  | @act front back t h => exact t.length_handlers_act w.responses
  | process _ =>
    show (w.responses.process _).handlers.length = _
    rw [Responses.handlers_process]
  | wake _ _ _ | pop _ _ => exact List.length_modify _ _ _
  | _ => rfl

theorem Run.watched {handlers : Nat} {w : Threads α} (run : Run home (start handlers) w) :
    Sound home w ∧ ∀ h x, w.responses.handlers[h]? = some x → Watched w h x := by
  generalize hstart : (start handlers : Threads α) = w₀ at run
  induction run with
  | refl =>
    subst hstart
    exact ⟨sound_start handlers, fun h x hx => watched_start hx⟩
  | @tail v v' run step ih =>
    obtain ⟨hsound, hwatched⟩ := ih
    refine ⟨hsound.step step, ?_⟩
    intro h x' hx'
    have hlt : h < v.responses.handlers.length := by
      rw [← step.length_handlers]
      exact (List.getElem?_eq_some_iff.mp hx').1
    obtain ⟨x, hx, hw⟩ := (hwatched h _ (List.getElem?_eq_getElem hlt)).step hsound
      (List.getElem?_eq_getElem hlt) step
    cases hx.symm.trans hx'
    exact hw

/-! ## Two loops that sleep on work -/

/-- An event that got its value after it was looked at, and joined the queue when the loop slept. -/
def overlooked : Threads Bool where
  responses := ⟨[⟨some true, true, some 0⟩], [⟨[0], false, false⟩], []⟩
  tasks := []
  loop := Function.update (fun _ => .idle) 0 .waiting
  missed := [0]
  restarted := []

/-- A handler that was stopped with an event in its queue. Its loop was started and came to its end,
and was started again. -/
def restartedLoop : Threads Bool where
  responses := ⟨[⟨some true, true, some 0⟩], [⟨[0], true, false⟩], []⟩
  tasks := []
  loop := Function.update (fun _ => .idle) 0 .waiting
  missed := []
  restarted := [0, 0]

theorem run_overlooked : Run (fun _ => 0) (start 1) overlooked := by
  have hcreated : Run (fun _ => 0) (start 1 : Threads Bool) _ := .single (.create true)
  have hlooked := hcreated
    |>.tail (@Step.run _ _ _ 0 _ rfl rfl)
    |>.tail (@Step.add _ _ _ 0 (by decide))
    |>.trans (run_act rfl rfl)
    |>.trans (run_act rfl rfl)
  have hstored := hlooked
    |>.tail (@Step.respond _ _ _ 0 true (by decide))
    |>.trans (run_act rfl rfl)
    |>.trans (run_act rfl rfl)
  have hasleep := hstored
    |>.tail (@Step.wake _ _ _ 0 _ rfl rfl rfl)
    |>.tail (@Step.enter _ _ _ 0 _ rfl rfl rfl)
    |>.tail (@Step.rest _ _ _ 0 rfl rfl)
  have hqueued := hasleep.trans (run_act rfl rfl)
  simp only [Function.update_idem] at hqueued
  exact hqueued

theorem run_restartedLoop : Run (fun _ => 0) (start 1) restartedLoop := by
  have hcreated : Run (fun _ => 0) (start 1 : Threads Bool) _ := .single (.create true)
  have hstopped := hcreated
    |>.trans (run_handle _ true (by decide : 0 < 1))
    |>.trans (run_add _ (by decide : 0 < 1))
    |>.trans (run_stop _ 0)
  have hleft := hstopped
    |>.tail (@Step.run _ _ _ 0 _ rfl rfl)
    |>.tail (@Step.wake _ _ _ 0 _ rfl rfl rfl)
    |>.tail (@Step.leave _ _ _ 0 _ rfl rfl rfl)
  have hagain := hleft.tail (@Step.run _ _ _ 0 _ rfl rfl)
  simp only [Function.update_idem] at hagain
  exact hagain

/-! ## Asleep -/

/-- A loop sleeps, and nobody else is at work. Then its handler is stopped exactly if the loop was
started on a stopped handler, and else the head of the queue is fulfilled exactly if it got its value
while it was overlooked. -/
theorem asleep_iff {handlers h : Nat} {w : Threads α} (run : Run home (start handlers) w)
    {x : ResponseHandler} (hx : w.responses.handlers[h]? = some x) (hasleep : w.loop h = .waiting)
    (hlowered : x.raised = false) (hquiet : w.tasks = []) :
    (x.stopped = true ↔ h ∈ w.restarted) ∧
      (h ∉ w.restarted → ∀ e, x.queue.head? = some e →
        (w.responses.isFulfilled e = true ↔ e ∈ w.missed)) := by
  obtain ⟨hsound, hwatched⟩ := run.watched
  have hw := hwatched h x hx
  have hunroused : ¬ Roused w h x := by
    rintro (hraised | ⟨t, ht, -⟩)
    · rw [hlowered] at hraised
      cases hraised
    · rw [hquiet] at ht
      cases ht
  have hstopped : x.stopped = true ↔ h ∈ w.restarted := by
    refine ⟨fun hstopped => ?_, hw.restarted⟩
    rcases hw.stopped_at_work (by simp [hasleep]) (by simp [hasleep]) hstopped with hmem | hroused
    · exact hmem
    · exact absurd hroused hunroused
  refine ⟨hstopped, fun hmem e he => ⟨fun hful => ?_, hsound.missed e⟩⟩
  rcases hw.head e he hful with hmissed | hcontra | hroused | hlooks
  · exact hmissed
  · exact absurd (hstopped.mp hcontra) hmem
  · exact absurd hroused hunroused
  · rw [hasleep] at hlooks
    exact hlooks.elim

theorem asleep_overlooked : Run (fun _ => 0) (start 1) overlooked ∧
    overlooked.responses.handlers[0]? = some ⟨[0], false, false⟩ ∧
    overlooked.loop 0 = .waiting ∧ overlooked.tasks = [] ∧
    (overlooked.responses.isFulfilled 0 = true ↔ 0 ∈ overlooked.missed) := by
  have hx : overlooked.responses.handlers[0]? = some ⟨[0], false, false⟩ := rfl
  have hiff := (asleep_iff run_overlooked hx rfl rfl rfl).2 List.not_mem_nil 0 rfl
  exact ⟨run_overlooked, hx, rfl, rfl, hiff⟩

/-- A loop sleeps, with nobody else at work, while the head of its queue is fulfilled, and so does a
loop whose handler is stopped. -/
theorem sleeps_on_work :
    (∃ w : Threads Bool, Run (fun _ => 0) (start 1) w ∧ w.loop 0 = .waiting ∧ w.tasks = [] ∧
      w.responses.handlers[0]? = some ⟨[0], false, false⟩ ∧ w.responses.isFulfilled 0 = true ∧
      w.responses.calls = []) ∧
    ∃ w : Threads Bool, Run (fun _ => 0) (start 1) w ∧ w.loop 0 = .waiting ∧ w.tasks = [] ∧
      w.responses.handlers[0]? = some ⟨[0], true, false⟩ ∧ w.responses.isFulfilled 0 = true ∧
      w.responses.calls = [] :=
  ⟨⟨overlooked, run_overlooked, rfl, rfl, rfl, rfl, rfl⟩,
    ⟨restartedLoop, run_restartedLoop, rfl, rfl, rfl, rfl, rfl⟩⟩

end Threads

end Parley
