import Parley.Proofs.Response.Threads

/-!
# What a drain does

A drain takes an event out of its queue and runs its hook, again and again. All in all it takes the
fulfilled events at the head of the queue, and runs the hooks that they still have.

- `Responses.queue` and `Responses.isHooked`: what is looked at, of a handler and of an event.
- `Responses.processAll`: events that are processed one after the other, and
  `Responses.calls_processAll`, the hooks that this runs.
- `Responses.drain_eq`: a drain is that, with the fulfilled events at the head of a queue.
-/

namespace Parley

namespace Responses

variable {α : Type}

/-- The events that a handler has still to process. -/
def queue (r : Responses α) (handler : Nat) : List Nat :=
  (r.handlers[handler]?.map (·.queue)).getD []

/-- Whether an event has a hook that has not run. -/
def isHooked (r : Responses α) (event : Nat) : Bool :=
  (r.events[event]?.map (·.hooked)).getD false

/-- The call of the hook of an event with the value that the event has. -/
def call? (r : Responses α) (event : Nat) : Option (HookCall α) :=
  (r.response? event).map (⟨event, ·⟩)

/-- Takes a number of events out of a queue. -/
def skip (r : Responses α) (handler n : Nat) : Responses α :=
  { r with handlers := r.handlers.modify handler fun h => { h with queue := h.queue.drop n } }

/-- The fulfilled events at the head of a queue. -/
def ready (r : Responses α) (handler : Nat) : List Nat :=
  (r.queue handler).takeWhile r.isFulfilled

/-- Processes events in their order. -/
def processAll (r : Responses α) (events : List Nat) : Responses α :=
  events.foldl process r

/-! ## Queues -/

/-- A queue, after a step on one handler. -/
theorem queue_modify (r : Responses α) (h : Nat) (f : ResponseHandler → ResponseHandler)
    (h' : Nat) :
    ({ r with handlers := r.handlers.modify h f } : Responses α).queue h' =
      if h = h' then (r.handlers[h]?.map fun x => (f x).queue).getD [] else r.queue h' := by
  show ((r.handlers.modify h f)[h']?.map _).getD [] = _
  rw [List.getElem?_modify]
  by_cases hsame : h = h'
  · subst hsame
    rw [if_pos rfl]
    cases r.handlers[h]? with
    | none => rfl
    | some x =>
      show (if h = h then f x else x).queue = (f x).queue
      rw [if_pos rfl]
  · rw [if_neg hsame, queue]
    cases r.handlers[h']? with
    | none => rfl
    | some x =>
      show (if h = h' then f x else x).queue = x.queue
      rw [if_neg hsame]

theorem queue_of_handlers {r r' : Responses α} (h : r'.handlers = r.handlers) (handler : Nat) :
    r'.queue handler = r.queue handler := by
  rw [queue, queue, h]

@[simp] theorem queue_raise (r : Responses α) (h h' : Nat) : (r.raise h).queue h' = r.queue h' := by
  rw [raise, queue_modify]
  by_cases hsame : h = h'
  · rw [if_pos hsame, hsame]
    rfl
  · rw [if_neg hsame]

@[simp] theorem queue_skip (r : Responses α) (h n h' : Nat) :
    (r.skip h n).queue h' = if h' = h then (r.queue h).drop n else r.queue h' := by
  rw [skip, queue_modify]
  by_cases hsame : h = h'
  · rw [if_pos hsame, if_pos hsame.symm, queue]
    cases r.handlers[h]? with
    | none => exact List.drop_nil.symm
    | some x => rfl
  · rw [if_neg hsame, if_neg (Ne.symm hsame)]

theorem queue_enqueue {r : Responses α} {h : Nat} (hlt : h < r.handlers.length) (e h' : Nat) :
    (r.enqueue h e).queue h' = r.queue h' ++ if h = h' then [e] else [] := by
  rw [enqueue, queue_modify]
  by_cases hsame : h = h'
  · rw [if_pos hsame, if_pos hsame, ← hsame, queue, List.getElem?_eq_getElem hlt]
    rfl
  · rw [if_neg hsame, if_neg hsame, List.append_nil]

theorem pending_eq (r : Responses α) (h : Nat) : r.pending h = (r.queue h).length := by
  unfold pending queue
  cases r.handlers[h]? with
  | none => rfl
  | some x => rfl

theorem head?_eq (r : Responses α) (h : Nat) :
    r.head? h = (r.queue h).head?.filter r.isFulfilled := by
  unfold head? queue
  cases r.handlers[h]? with
  | none => rfl
  | some x =>
    rw [Option.bind_some, Option.map_some, Option.getD_some]
    cases x.queue.head? with
    | none => rfl
    | some e => rfl

/-! ## Hooks and values -/

/-- A step on one event, as it is seen from any event by somebody who does not notice it. -/
theorem map_getElem?_modify {β : Type} {g : ResponseEvent α → β}
    {f : ResponseEvent α → ResponseEvent α} (hf : ∀ x, g (f x) = g x)
    (events : List (ResponseEvent α)) (e e' : Nat) :
    (events.modify e f)[e']?.map g = events[e']?.map g := by
  rw [List.getElem?_modify]
  cases events[e']? with
  | none => rfl
  | some x =>
    show some (g (if e = e' then f x else x)) = some (g x)
    split
    · rw [hf]
    · rfl

theorem isHooked_of_modify {r r' : Responses α} {e : Nat} {f : ResponseEvent α → ResponseEvent α}
    (h : r'.events = r.events.modify e f) (hf : ∀ x, (f x).hooked = x.hooked) (e' : Nat) :
    r'.isHooked e' = r.isHooked e' := by
  rw [isHooked, h, map_getElem?_modify hf, isHooked]

theorem response?_of_modify {r r' : Responses α} {e : Nat} {f : ResponseEvent α → ResponseEvent α}
    (h : r'.events = r.events.modify e f) (hf : ∀ x, (f x).value = x.value) (e' : Nat) :
    r'.response? e' = r.response? e' := by
  have hmap (r : Responses α) : r.response? e' = (r.events[e']?.map (·.value)).bind id := by
    rw [Option.bind_map]
    rfl
  rw [hmap, hmap, h, map_getElem?_modify hf]

theorem isFulfilled_eq_isSome (r : Responses α) (e : Nat) :
    r.isFulfilled e = (r.response? e).isSome := by
  unfold isFulfilled response?
  cases r.events[e]? with
  | none => rfl
  | some x => rfl

theorem exists_call {r : Responses α} {e : Nat} (h : r.isFulfilled e = true) :
    ∃ v, r.call? e = some ⟨e, v⟩ := by
  rw [isFulfilled_eq_isSome] at h
  obtain ⟨v, hv⟩ := Option.isSome_iff_exists.mp h
  refine ⟨v, ?_⟩
  rw [call?, hv]
  rfl

/-! ## Processing an event -/

/-- Setting an event to what a step makes of it. -/
theorem set_eq_modify_of_some {events : List (ResponseEvent α)} {e : Nat} {x : ResponseEvent α}
    (hx : events[e]? = some x) (f : ResponseEvent α → ResponseEvent α) :
    events.set e (f x) = events.modify e f := by
  have : Inhabited (ResponseEvent α) := ⟨x⟩
  rw [List.modify_eq_set, hx]
  rfl

theorem events_process (r : Responses α) (e : Nat) :
    (r.process e).events = r.events.modify e fun x => x.process.1 := by
  unfold process
  cases hx : r.events[e]? with
  | none => exact (List.modify_eq_self (List.getElem?_eq_none_iff.mp hx)).symm
  | some x => exact set_eq_modify_of_some hx fun x => x.process.1

theorem process_value (x : ResponseEvent α) : x.process.1.value = x.value := by
  unfold ResponseEvent.process
  cases hv : x.value with
  | none => exact hv
  | some v => exact hv

@[simp] theorem response?_process (r : Responses α) (e e' : Nat) :
    (r.process e).response? e' = r.response? e' :=
  response?_of_modify (r.events_process e) process_value e'

theorem isHooked_process {r : Responses α} {e : Nat} (h : r.isFulfilled e = true) (e' : Nat) :
    (r.process e).isHooked e' = (r.isHooked e' && !e' == e) := by
  rw [isHooked, isHooked, events_process, List.getElem?_modify]
  by_cases he : e' = e
  · subst he
    rw [isFulfilled_eq] at h
    cases hx : r.events[e']? with
    | none => rfl
    | some x =>
      rw [hx] at h
      obtain ⟨v, hv⟩ := Option.isSome_iff_exists.mp h
      have hprocess : x.process.1.hooked = false := by
        rw [ResponseEvent.process, hv]
        rfl
      simp [hprocess]
  · have hne : (e' == e) = false := beq_false_of_ne he
    rw [hne, Bool.not_false, Bool.and_true]
    cases r.events[e']? with
    | none => rfl
    | some x =>
      show (if e = e' then x.process.1 else x).hooked = x.hooked
      rw [if_neg (Ne.symm he)]

theorem calls_process (r : Responses α) (e : Nat) :
    (r.process e).calls = r.calls ++ if r.isHooked e then (r.call? e).toList else [] := by
  unfold process isHooked call? response?
  cases r.events[e]? with
  | none => simp
  | some x =>
    obtain ⟨value, hooked, handler⟩ := x
    cases value with
    | none => simp [called, ResponseEvent.process]
    | some v => cases hooked <;> simp [called, ResponseEvent.process, ResponseEvent.fire]

/-- Who waits for an event with success gets its value, and the event is processed. -/
theorem wait?_eq_some_iff {r r' : Responses α} {e : Nat} {v : α} :
    r.wait? e = some (v, r') ↔ r.response? e = some v ∧ r' = r.process e := by
  unfold wait? response? process
  cases r.events[e]? with
  | none => exact ⟨nofun, nofun⟩
  | some x =>
    obtain ⟨value, hooked, handler⟩ := x
    cases value with
    | none => exact ⟨nofun, nofun⟩
    | some w =>
      constructor
      · intro h
        cases h
        exact ⟨rfl, rfl⟩
      · rintro ⟨hv, rfl⟩
        cases hv
        rfl

/-! ## Processing events in their order -/

theorem processAll_cons (r : Responses α) (e : Nat) (es : List Nat) :
    r.processAll (e :: es) = (r.process e).processAll es := rfl

@[simp] theorem handlers_processAll (r : Responses α) (es : List Nat) :
    (r.processAll es).handlers = r.handlers := by
  induction es generalizing r with
  | nil => rfl
  | cons e es ih => rw [processAll_cons, ih, handlers_process]

@[simp] theorem length_events_processAll (r : Responses α) (es : List Nat) :
    (r.processAll es).events.length = r.events.length := by
  induction es generalizing r with
  | nil => rfl
  | cons e es ih => rw [processAll_cons, ih, length_events_process]

@[simp] theorem response?_processAll (r : Responses α) (es : List Nat) (e : Nat) :
    (r.processAll es).response? e = r.response? e := by
  induction es generalizing r with
  | nil => rfl
  | cons e' es ih => rw [processAll_cons, ih, response?_process]

/-- No event that is processed keeps its hook. -/
theorem isHooked_processAll {r : Responses α} {es : List Nat}
    (h : ∀ e ∈ es, r.isFulfilled e = true) (e : Nat) :
    (r.processAll es).isHooked e = (r.isHooked e && !es.contains e) := by
  induction es generalizing r with
  | nil => simp [processAll]
  | cons e' es ih =>
    have hlater : ∀ e ∈ es, (r.process e').isFulfilled e = true := fun e he => by
      rw [isFulfilled_process]
      exact h e (List.mem_cons_of_mem _ he)
    rw [processAll_cons, ih hlater, isHooked_process (h e' List.mem_cons_self), List.contains_cons,
      Bool.not_or, Bool.and_assoc]

theorem call?_process (r : Responses α) (e : Nat) : (r.process e).call? = r.call? := by
  funext e'
  rw [call?, call?, response?_process]

/-- The hooks that are left are run in the order of the events. An event that comes again has no
hook by then. -/
theorem calls_processAll {r : Responses α} {es : List Nat} (h : ∀ e ∈ es, r.isFulfilled e = true) :
    (r.processAll es).calls =
      r.calls ++ (es.filter r.isHooked).eraseDups.filterMap r.call? := by
  induction es generalizing r with
  | nil => simp [processAll]
  | cons e es ih =>
    have hlater : ∀ e' ∈ es, (r.process e).isFulfilled e' = true := fun e' he => by
      rw [isFulfilled_process]
      exact h e' (List.mem_cons_of_mem _ he)
    have hfulfilled := h e List.mem_cons_self
    have hleft : es.filter (r.process e).isHooked =
        (es.filter r.isHooked).filter fun e' => !e' == e := by
      rw [List.filter_filter]
      refine List.filter_congr fun e' _ => ?_
      rw [isHooked_process hfulfilled, Bool.and_comm]
    rw [processAll_cons, ih hlater, calls_process, call?_process, hleft, List.append_assoc]
    congr 1
    cases hhooked : r.isHooked e with
    | true =>
      obtain ⟨v, hcall⟩ := exists_call hfulfilled
      rw [List.filter_cons_of_pos hhooked, List.eraseDups_cons, List.filterMap_cons_some hcall,
        hcall]
      rfl
    | false =>
      have hself : (es.filter r.isHooked).filter (fun e' => !e' == e) = es.filter r.isHooked := by
        refine List.filter_eq_self.mpr fun e' he => ?_
        have hne : e' ≠ e := by
          rintro rfl
          rw [List.mem_filter, hhooked] at he
          exact absurd he.2 Bool.false_ne_true
        rw [beq_false_of_ne hne]
        rfl
      rw [List.filter_cons_of_neg (ne_true_of_eq_false hhooked), hself]
      rfl

/-! ## Drains -/

theorem forall_ready (r : Responses α) (h : Nat) : ∀ e ∈ r.ready h, r.isFulfilled e = true :=
  List.all_eq_true.mp List.all_takeWhile

theorem popHead_eq_skip (r : Responses α) (h : Nat) : r.popHead h = r.skip h 1 := by
  unfold popHead skip
  simp only [List.drop_one]

theorem skip_zero (r : Responses α) (h : Nat) : r.skip h 0 = r := by
  unfold skip
  simp only [List.drop_zero]
  exact congrArg (Responses.mk r.events · r.calls) (List.modify_id h r.handlers)

theorem skip_skip (r : Responses α) (h m n : Nat) : (r.skip h m).skip h n = r.skip h (m + n) := by
  unfold skip
  rw [List.modify_modify_eq]
  simp only [Function.comp_def, List.drop_drop]

theorem process_skip (r : Responses α) (h n e : Nat) :
    (r.skip h n).process e = (r.process e).skip h n := by
  have hevents : (r.skip h n).events = r.events := rfl
  unfold process
  rw [hevents]
  cases r.events[e]? with
  | none => rfl
  | some x => rfl

/-- A drain that may go on for as many rounds as its queue has events. -/
theorem drainFor_eq {rounds : Nat} {r : Responses α} {h : Nat}
    (hrounds : (r.queue h).length ≤ rounds) :
    drainFor h rounds r =
      ((r.ready h).length, (r.skip h (r.ready h).length).processAll (r.ready h)) := by
  induction rounds generalizing r with
  | zero =>
    have hempty : r.queue h = [] := List.eq_nil_of_length_eq_zero (Nat.le_zero.mp hrounds)
    have hready : r.ready h = [] := by rw [ready, hempty]; rfl
    rw [hready, List.length_nil, skip_zero]
    rfl
  | succ rounds ih =>
    rw [drainFor, head?_eq]
    cases hqueue : r.queue h with
    | nil =>
      have hready : r.ready h = [] := by rw [ready, hqueue]; rfl
      rw [hready, List.length_nil, skip_zero]
      rfl
    | cons e es =>
      cases hfulfilled : r.isFulfilled e with
      | false =>
        have hready : r.ready h = [] := by
          rw [ready, hqueue, List.takeWhile_cons_of_neg (ne_true_of_eq_false hfulfilled)]
        rw [List.head?_cons, Option.filter_some_neg hfulfilled, hready, List.length_nil, skip_zero]
        rfl
      | true =>
        have hnext : ((r.popHead h).process e).queue h = es := by
          rw [queue_of_handlers (handlers_process _ _), popHead_eq_skip, queue_skip, if_pos rfl,
            hqueue]
          rfl
        have hsame : ((r.popHead h).process e).isFulfilled = r.isFulfilled := by
          funext e'
          rw [isFulfilled_process]
          rfl
        have hready : r.ready h = e :: ((r.popHead h).process e).ready h := by
          rw [ready, ready, hnext, hsame, hqueue, List.takeWhile_cons_of_pos hfulfilled]
        have hrest : (((r.popHead h).process e).queue h).length ≤ rounds := by
          rw [hqueue, List.length_cons] at hrounds
          rw [hnext]
          omega
        rw [List.head?_cons, Option.filter_some_pos hfulfilled, hready]
        simp only [ih hrest]
        simp only [List.length_cons, processAll_cons, process_skip, popHead_eq_skip, skip_skip]
        rw [Nat.add_comm 1]

/-- A drain takes the fulfilled events at the head of its queue and processes them in order. -/
theorem drain_eq (r : Responses α) (h : Nat) :
    r.drain h = ((r.ready h).length, (r.skip h (r.ready h).length).processAll (r.ready h)) := by
  rw [drain, drainFor_eq (Nat.le_of_eq (r.pending_eq h).symm)]

end Responses

end Parley
