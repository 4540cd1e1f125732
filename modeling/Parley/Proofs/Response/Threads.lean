import Mathlib.Logic.Function.Basic
import Mathlib.Logic.Relation
import Parley.Response.Handler

/-!
# Threads around the handlers of responses

Adding an event, storing a value and stopping a handler are each several steps, and the loop of a
handler is one more thread. Between the steps of one thread the others may take any of theirs.

- `Todo`: what a thread does next, and `Todo.act`, that step.
- `Threads.Step`: one step of some thread. An event is added to one handler only (`home`).
- `Threads.run_add`, `Threads.run_handle`, `Threads.run_stop`, `Threads.run_wake`: a thread that nobody
  comes between does what `Responses.add`, `Responses.handle`, `Responses.stop` and `Responses.wake` do.
-/

namespace Parley

namespace Responses

variable {α : Type}

/-- The handler that is woken when an event is fulfilled. -/
def wokenBy (r : Responses α) (event : Nat) : Option Nat :=
  r.events[event]?.bind (·.handler)

/-! ## The steps of the operations -/

/-- After a first value was stored: wakes the handler that the event has by then. -/
def notify (r : Responses α) (event : Nat) : Responses α :=
  match r.wokenBy event with
  | some handler => r.raise handler
  | none => r

/-- The first step of stopping a handler. Raising its signal is the second. -/
def halt (r : Responses α) (handler : Nat) : Responses α :=
  { r with handlers := r.handlers.modify handler fun h => { h with stopped := true } }

/-- The loop lowers the signal that it has seen raised. -/
def lower (r : Responses α) (handler : Nat) : Responses α :=
  { r with handlers := r.handlers.modify handler fun h => { h with raised := false } }

/-- A step on one handler, as it is seen from any handler. -/
theorem getElem?_modify_of_some {handlers : List ResponseHandler} {j : Nat} {x : ResponseHandler}
    (hx : handlers[j]? = some x) (i : Nat) (f : ResponseHandler → ResponseHandler) :
    (handlers.modify i f)[j]? = some (if i = j then f x else x) := by
  rw [List.getElem?_modify, hx]
  rfl

/-! ## Steps on events -/

/-- What is put at the end of a list has the next number. -/
theorem getElem?_snoc {β : Type} (xs : List β) (x : β) (i : Nat) :
    (xs ++ [x])[i]? = if i = xs.length then some x else xs[i]? := by
  rcases Nat.lt_trichotomy i xs.length with h | rfl | h
  · rw [List.getElem?_append_left h, if_neg (Nat.ne_of_lt h)]
  · rw [List.getElem?_concat_length, if_pos rfl]
  · have hsmall : (xs ++ [x]).length ≤ i := by
      rw [List.length_append]
      exact h
    rw [if_neg (Nat.ne_of_gt h), List.getElem?_eq_none hsmall,
      List.getElem?_eq_none (Nat.le_of_lt h)]

/-- The event of a number after another event has changed. -/
theorem isFulfilled_eq (r : Responses α) (e : Nat) :
    r.isFulfilled e = r.events[e]?.any (·.isFulfilled) := by
  unfold isFulfilled
  cases r.events[e]? with
  | none => rfl
  | some x => rfl

@[simp] theorem isFulfilled_addEvent (r : Responses α) (hooked : Bool) (e : Nat) :
    (r.addEvent ⟨none, hooked, none⟩).isFulfilled e = r.isFulfilled e := by
  rw [isFulfilled_eq, isFulfilled_eq]
  show (r.events ++ [_])[e]?.any _ = _
  rw [getElem?_snoc]
  split
  · rename_i he
    rw [he, List.getElem?_eq_none (Nat.le_refl _)]
    rfl
  · rfl

@[simp] theorem wokenBy_addEvent (r : Responses α) (hooked : Bool) (e : Nat) :
    (r.addEvent ⟨none, hooked, none⟩).wokenBy e = r.wokenBy e := by
  show (r.events ++ [_])[e]?.bind _ = r.events[e]?.bind _
  rw [getElem?_snoc]
  split
  · rename_i he
    rw [he, List.getElem?_eq_none (Nat.le_refl _)]
    rfl
  · rfl

@[simp] theorem isFulfilled_attach (r : Responses α) (h e e' : Nat) :
    (r.attach h e).isFulfilled e' = r.isFulfilled e' := by
  rw [isFulfilled_eq, isFulfilled_eq]
  show (r.events.modify e _)[e']?.any _ = _
  rw [List.getElem?_modify]
  cases r.events[e']? with
  | none => rfl
  | some x =>
    show (if e = e' then x.attach h else x).isFulfilled = x.isFulfilled
    split <;> rfl

/-- The event that is attached wakes the handler, and all others wake whom they woke. -/
theorem wokenBy_attach (r : Responses α) (h e e' : Nat) :
    (r.attach h e).wokenBy e' =
      if e = e' ∧ e < r.events.length then some h else r.wokenBy e' := by
  show (r.events.modify e _)[e']?.bind _ = if _ then _ else r.events[e']?.bind _
  rw [List.getElem?_modify]
  by_cases hlt : e' < r.events.length
  · rw [List.getElem?_eq_getElem hlt]
    show (if e = e' then (r.events[e']).attach h else r.events[e']).handler = _
    by_cases he : e = e'
    · rw [if_pos he, if_pos ⟨he, he ▸ hlt⟩]
      rfl
    · rw [if_neg he, if_neg (fun hand => he hand.1)]
      rfl
  · rw [List.getElem?_eq_none (Nat.not_lt.mp hlt), if_neg]
    · rfl
    · rintro ⟨rfl, hlt'⟩
      exact hlt hlt'

/-- The event that is given a value is fulfilled, and all others are as they were. -/
theorem isFulfilled_store (r : Responses α) (e : Nat) (v : α) (e' : Nat) :
    (r.store e v).1.isFulfilled e' = true ↔
      r.isFulfilled e' = true ∨ (e = e' ∧ e < r.events.length) := by
  unfold store
  cases hx : r.events[e]? with
  | none =>
    have hlt : ¬ e < r.events.length := Nat.not_lt.mpr (List.getElem?_eq_none_iff.mp hx)
    exact ⟨.inl, fun h => h.resolve_right fun hand => hlt hand.2⟩
  | some x =>
    obtain ⟨hlt, -⟩ := List.getElem?_eq_some_iff.mp hx
    rw [isFulfilled_eq, isFulfilled_eq]
    show (r.events.set e _)[e']?.any _ = true ↔ _
    by_cases he : e = e'
    · subst he
      rw [List.getElem?_set_self hlt]
      exact ⟨fun _ => .inr ⟨rfl, hlt⟩, fun _ => rfl⟩
    · rw [List.getElem?_set_ne he]
      exact ⟨.inl, fun h => h.resolve_right fun hand => he hand.1⟩

theorem wokenBy_set (r : Responses α) {e : Nat} {x y : ResponseEvent α} (hx : r.events[e]? = some x)
    (hy : y.handler = x.handler) (e' : Nat) :
    (r.events.set e y)[e']?.bind (·.handler) = r.wokenBy e' := by
  obtain ⟨hlt, -⟩ := List.getElem?_eq_some_iff.mp hx
  by_cases he : e = e'
  · subst he
    rw [List.getElem?_set_self hlt, wokenBy, hx]
    exact hy
  · rw [List.getElem?_set_ne he]
    rfl

@[simp] theorem wokenBy_store (r : Responses α) (e : Nat) (v : α) (e' : Nat) :
    (r.store e v).1.wokenBy e' = r.wokenBy e' := by
  unfold store
  cases hx : r.events[e]? with
  | none => rfl
  | some x =>
    have hstore : (x.store v).1.handler = x.handler := rfl
    exact wokenBy_set r hx hstore e'

@[simp] theorem length_events_store (r : Responses α) (e : Nat) (v : α) :
    (r.store e v).1.events.length = r.events.length := by
  unfold store
  cases r.events[e]? with
  | none => rfl
  | some x => exact List.length_set

@[simp] theorem handlers_store (r : Responses α) (e : Nat) (v : α) :
    (r.store e v).1.handlers = r.handlers := by
  unfold store
  cases r.events[e]? with
  | none => rfl
  | some x => rfl

theorem process_handler (x : ResponseEvent α) : x.process.1.handler = x.handler := by
  unfold ResponseEvent.process
  cases x.value with
  | none => rfl
  | some v => rfl

theorem process_isFulfilled (x : ResponseEvent α) : x.process.1.isFulfilled = x.isFulfilled := by
  unfold ResponseEvent.process
  cases hv : x.value with
  | none => rfl
  | some v => simp [ResponseEvent.fire, ResponseEvent.isFulfilled]

@[simp] theorem handlers_process (r : Responses α) (e : Nat) :
    (r.process e).handlers = r.handlers := by
  unfold process
  cases r.events[e]? with
  | none => rfl
  | some x => rfl

@[simp] theorem length_events_process (r : Responses α) (e : Nat) :
    (r.process e).events.length = r.events.length := by
  unfold process
  cases r.events[e]? with
  | none => rfl
  | some x => exact List.length_set

@[simp] theorem wokenBy_process (r : Responses α) (e e' : Nat) :
    (r.process e).wokenBy e' = r.wokenBy e' := by
  unfold process
  cases hx : r.events[e]? with
  | none => rfl
  | some x => exact wokenBy_set r hx (process_handler x) e'

@[simp] theorem isFulfilled_process (r : Responses α) (e e' : Nat) :
    (r.process e).isFulfilled e' = r.isFulfilled e' := by
  unfold process
  cases hx : r.events[e]? with
  | none => rfl
  | some x =>
    obtain ⟨hlt, -⟩ := List.getElem?_eq_some_iff.mp hx
    rw [isFulfilled_eq, isFulfilled_eq]
    show (r.events.set e _)[e']?.any _ = _
    by_cases he : e = e'
    · subst he
      rw [List.getElem?_set_self hlt, hx]
      exact process_isFulfilled x
    · rw [List.getElem?_set_ne he]

@[simp] theorem events_notify (r : Responses α) (e : Nat) : (r.notify e).events = r.events := by
  unfold notify
  cases r.wokenBy e with
  | none => rfl
  | some h => rfl

/-! ## Operations as their steps -/

theorem stop_eq (r : Responses α) (handler : Nat) :
    r.stop handler = (r.halt handler).raise handler := by
  unfold stop halt raise
  rw [List.modify_modify_eq]
  rfl

theorem handle_eq (r : Responses α) (e : Nat) (v : α) :
    r.handle e v =
      if r.isFulfilled e then (r.store e v).1 else (r.store e v).1.notify e := by
  unfold handle notify
  rw [wokenBy_store]
  unfold store isFulfilled wokenBy
  cases hx : r.events[e]? with
  | none => rfl
  | some x =>
    obtain ⟨value, hooked, handler⟩ := x
    cases value with
    | some old => rfl
    | none =>
      cases handler with
      | none => rfl
      | some h => rfl

end Responses

/-! ## Threads -/

/-- What a thread in the middle of an operation does next. -/
inductive Todo (α : Type)
  /-- Adding an event: the event learns whom to wake. -/
  | attach (handler event : Nat)
  /-- Adding an event: it is looked at whether the event is fulfilled. -/
  | look (handler event : Nat)
  /-- Adding an event: it joins the queue. If it was found fulfilled, the signal is raised then. -/
  | enqueue (handler event : Nat) (found : Bool)
  /-- Giving an event a value. If it is the first, the handler is woken then. -/
  | store (event : Nat) (value : α)
  | notify (event : Nat)
  /-- Stopping a handler. Its signal is raised then. -/
  | halt (handler : Nat)
  | raise (handler : Nat)

namespace Todo

variable {α : Type}

/-- The step, and what the thread does after it. -/
def act (r : Responses α) : Todo α → Responses α × Option (Todo α)
  | attach handler event => (r.attach handler event, some (look handler event))
  | look handler event => (r, some (enqueue handler event (r.isFulfilled event)))
  | enqueue handler event found =>
    (r.enqueue handler event, if found then some (raise handler) else none)
  | store event value =>
    ((r.store event value).1, if r.isFulfilled event then none else some (notify event))
  | notify event => (r.notify event, none)
  | halt handler => (r.halt handler, some (raise handler))
  | raise handler => (r.raise handler, none)

/-- The event that a thread found unfulfilled and has yet to put into the queue. -/
def overlooked : Todo α → Option Nat
  | enqueue _ event false => some event
  | _ => none

/-- The event that a step fulfils while some thread has it overlooked. -/
def misses (tasks : List (Todo α)) : Todo α → List Nat
  | store event _ => if event ∈ tasks.filterMap overlooked then [event] else []
  | _ => []

end Todo

/-- Where the loop of a handler is. -/
inductive HandlerLoop
  /-- It has not been started, or has come to its end. -/
  | idle
  | waiting
  /-- It has lowered its signal, and looks whether the handler is stopped. -/
  | woken
  | draining
  /-- It has taken an event out of the queue, and runs its hook. -/
  | running (event : Nat)
deriving DecidableEq, Repr

/-- The loop is still to look at the head of the queue before it sleeps. -/
def HandlerLoop.looks : HandlerLoop → Prop
  | woken | draining | running _ => True
  | idle | waiting => False

/-- Events, handlers, their loops, and the threads in the middle of an operation. -/
structure Threads (α : Type) where
  responses : Responses α
  tasks : List (Todo α)
  loop : Nat → HandlerLoop
  /-- Events that got a value while a thread had them overlooked. Nobody reads this. -/
  missed : List Nat
  /-- Handlers whose loop was started after they were stopped. Nobody reads this. -/
  restarted : List Nat

namespace Threads

variable {α : Type}

/-- Handlers with nothing to do, and no loop running. -/
def start (handlers : Nat) : Threads α :=
  ⟨.new handlers, [], fun _ => .idle, [], []⟩

/-- One step of some thread. Each event is added to one handler, its home. -/
inductive Step (home : Nat → Nat) : Threads α → Threads α → Prop
  | create {w : Threads α} (hooked : Bool) :
      Step home w { w with responses := w.responses.addEvent ⟨none, hooked, none⟩ }
  /-- A thread begins to add an event. -/
  | add {w : Threads α} {event : Nat} (h : event < w.responses.events.length) :
      Step home w { w with tasks := .attach (home event) event :: w.tasks }
  /-- A thread begins to give an event a value. -/
  | respond {w : Threads α} {event : Nat} (v : α) (h : event < w.responses.events.length) :
      Step home w { w with tasks := .store event v :: w.tasks }
  /-- A thread begins to stop a handler. -/
  | stop {w : Threads α} (handler : Nat) :
      Step home w { w with tasks := .halt handler :: w.tasks }
  /-- A thread goes on. -/
  | act {w : Threads α} {front back : List (Todo α)} {t : Todo α}
      (h : w.tasks = front ++ t :: back) :
      Step home w { w with
        responses := (t.act w.responses).1
        tasks := front ++ (t.act w.responses).2.toList ++ back
        missed := t.misses w.tasks ++ w.missed }
  /-- The loop of a handler is started. -/
  | run {w : Threads α} {handler : Nat} {x : ResponseHandler}
      (h : w.loop handler = .idle) (hx : w.responses.handlers[handler]? = some x) :
      Step home w { w with
        loop := Function.update w.loop handler .waiting
        restarted := (if x.stopped then [handler] else []) ++ w.restarted }
  /-- The loop finds its signal raised, and lowers it. -/
  | wake {w : Threads α} {handler : Nat} {x : ResponseHandler} (h : w.loop handler = .waiting)
      (hx : w.responses.handlers[handler]? = some x) (hraised : x.raised = true) :
      Step home w { w with
        responses := w.responses.lower handler
        loop := Function.update w.loop handler .woken }
  /-- The handler is stopped, so the loop ends. -/
  | leave {w : Threads α} {handler : Nat} {x : ResponseHandler} (h : w.loop handler = .woken)
      (hx : w.responses.handlers[handler]? = some x) (hstopped : x.stopped = true) :
      Step home w { w with loop := Function.update w.loop handler .idle }
  | enter {w : Threads α} {handler : Nat} {x : ResponseHandler} (h : w.loop handler = .woken)
      (hx : w.responses.handlers[handler]? = some x) (hstopped : x.stopped = false) :
      Step home w { w with loop := Function.update w.loop handler .draining }
  /-- The head of the queue is fulfilled, so the loop takes it out. -/
  | pop {w : Threads α} {handler event : Nat} (h : w.loop handler = .draining)
      (hhead : w.responses.head? handler = some event) :
      Step home w { w with
        responses := w.responses.popHead handler
        loop := Function.update w.loop handler (.running event) }
  | process {w : Threads α} {handler event : Nat} (h : w.loop handler = .running event) :
      Step home w { w with
        responses := w.responses.process event
        loop := Function.update w.loop handler .draining }
  /-- The head of the queue is not fulfilled, or there is none, so the loop waits again. -/
  | rest {w : Threads α} {handler : Nat} (h : w.loop handler = .draining)
      (hhead : w.responses.head? handler = none) :
      Step home w { w with loop := Function.update w.loop handler .waiting }

/-- A sequence of steps. -/
abbrev Run (home : Nat → Nat) : Threads α → Threads α → Prop :=
  Relation.ReflTransGen (Step home)

/-- The thread that began last goes on. -/
theorem run_act {home : Nat → Nat} {w v : Threads α} {t : Todo α} {back : List (Todo α)}
    (h : w.tasks = t :: back)
    (hv : v = { w with
      responses := (t.act w.responses).1
      tasks := (t.act w.responses).2.toList ++ back
      missed := t.misses w.tasks ++ w.missed }) : Run home w v := by
  rw [hv]
  exact .single (@Step.act _ _ _ [] _ _ h)

/-! ## Nobody comes between -/

variable {home : Nat → Nat}

theorem run_add (w : Threads α) {event : Nat} (h : event < w.responses.events.length) :
    Run home w { w with responses := w.responses.add (home event) event } := by
  refine .head (.add h)
    (.trans (run_act rfl rfl) (.trans (run_act rfl rfl) (.trans (run_act rfl rfl) ?_)))
  cases hfound : (w.responses.attach (home event) event).isFulfilled event with
  | false =>
    have hadd : w.responses.add (home event) event =
        (w.responses.attach (home event) event).enqueue (home event) event := by
      rw [Responses.add, hfound]
      rfl
    rw [hadd]
    simp only [Todo.act, hfound]
    exact .refl
  | true =>
    have hadd : w.responses.add (home event) event =
        ((w.responses.attach (home event) event).enqueue (home event) event).raise (home event) := by
      rw [Responses.add, hfound]
      rfl
    rw [hadd]
    simp only [Todo.act, hfound]
    exact run_act rfl rfl

theorem run_handle (w : Threads α) {event : Nat} (v : α) (h : event < w.responses.events.length) :
    Run home w { w with
      responses := w.responses.handle event v
      missed := (Todo.store event v).misses w.tasks ++ w.missed } := by
  refine .head (.respond v h) (.trans (run_act rfl rfl) ?_)
  rw [Responses.handle_eq]
  cases hfound : w.responses.isFulfilled event with
  | true =>
    simp only [Todo.act, hfound]
    exact .refl
  | false =>
    simp only [Todo.act, hfound]
    exact run_act rfl rfl

theorem run_stop (w : Threads α) (handler : Nat) :
    Run home w { w with responses := w.responses.stop handler } := by
  rw [Responses.stop_eq]
  exact .head (.stop handler) (.trans (run_act rfl rfl) (run_act rfl rfl))

theorem pending_popHead (r : Responses α) (handler : Nat) :
    (r.popHead handler).pending handler = r.pending handler - 1 := by
  unfold Responses.pending
  cases hx : r.handlers[handler]? with
  | none =>
    have hpop : (r.popHead handler).handlers[handler]? = none := by
      show (r.handlers.modify handler _)[handler]? = none
      rw [List.getElem?_modify_eq, hx]
      rfl
    simp only [hpop, Nat.zero_sub]
  | some x =>
    have hpop : (r.popHead handler).handlers[handler]? = some { x with queue := x.queue.tail } := by
      show (r.handlers.modify handler _)[handler]? = _
      rw [Responses.getElem?_modify_of_some hx, if_pos rfl]
    rw [hpop]
    exact List.length_tail

theorem head?_of_pending {r : Responses α} {handler : Nat} (h : r.pending handler = 0) :
    r.head? handler = none := by
  unfold Responses.pending at h
  unfold Responses.head?
  cases hx : r.handlers[handler]? with
  | none => rfl
  | some x =>
    rw [hx] at h
    have hqueue : x.queue = [] := List.eq_nil_of_length_eq_zero h
    simp [hqueue]

theorem run_drainFor {rounds : Nat} {w : Threads α} {handler : Nat}
    (hloop : w.loop handler = .draining) (h : w.responses.pending handler ≤ rounds) :
    Run home w { w with
      responses := (Responses.drainFor handler rounds w.responses).2
      loop := Function.update w.loop handler .waiting } := by
  induction rounds generalizing w with
  | zero => exact Relation.ReflTransGen.single (.rest hloop (head?_of_pending (Nat.le_zero.mp h)))
  | succ rounds ih =>
    unfold Responses.drainFor
    cases hhead : w.responses.head? handler with
    | none => exact Relation.ReflTransGen.single (.rest hloop hhead)
    | some event =>
      refine .head (.pop hloop hhead) (.head (.process (Function.update_self _ _ _)) ?_)
      have hpending : ((w.responses.popHead handler).process event).pending handler ≤ rounds := by
        have hsame : ((w.responses.popHead handler).process event).pending handler =
            (w.responses.popHead handler).pending handler := by
          unfold Responses.pending
          rw [Responses.handlers_process]
        rw [hsame, pending_popHead]
        omega
      have hrest := ih (w := { w with
        responses := (w.responses.popHead handler).process event
        loop := Function.update (Function.update w.loop handler (.running event)) handler .draining })
        (Function.update_self _ _ _) hpending
      simp only [Function.update_idem] at hrest ⊢
      exact hrest

/-- A round of the loop that nobody comes between. -/
theorem run_wake {w : Threads α} {handler : Nat} (hloop : w.loop handler = .waiting) :
    match w.responses.wake handler with
    | .asleep => ∀ x, w.responses.handlers[handler]? = some x → x.raised = false
    | .over r =>
      Run home w { w with responses := r, loop := Function.update w.loop handler .idle }
    | .again r => Run home w { w with responses := r } := by
  unfold Responses.wake
  cases hx : w.responses.handlers[handler]? with
  | none => exact nofun
  | some x =>
    have hlower : (w.responses.lower handler).handlers[handler]? =
        some { x with raised := false } := by
      show (w.responses.handlers.modify handler _)[handler]? = _
      rw [Responses.getElem?_modify_of_some hx, if_pos rfl]
    cases hraised : x.raised with
    | false =>
      simp only [hraised]
      rintro _ ⟨⟩
      exact hraised
    | true =>
      have hwake : Run home w { w with
          responses := w.responses.lower handler
          loop := Function.update w.loop handler .woken } :=
        Relation.ReflTransGen.single (.wake hloop hx hraised)
      cases hstopped : x.stopped with
      | true =>
        simp only [hraised, hstopped]
        have hleave := hwake.tail (.leave (Function.update_self _ _ _) hlower hstopped)
        simp only [Function.update_idem] at hleave
        exact hleave
      | false =>
        simp only [hraised, hstopped]
        have henter := hwake.tail (.enter (Function.update_self _ _ _) hlower hstopped)
        have hdrain := henter.trans (run_drainFor (Function.update_self _ _ _) (Nat.le_refl _))
        have hback : Function.update w.loop handler .waiting = w.loop := by
          rw [← hloop, Function.update_eq_self]
        simp only [Function.update_idem, hback] at hdrain
        exact hdrain

end Threads

end Parley
