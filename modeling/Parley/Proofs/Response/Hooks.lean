import Parley.Proofs.Response.Drains

/-!
# Hooks run once, in the order of the queues

Operations on events and handlers are done as a whole, one after the other. What they were and what
they answered is all that one needs to tell which hooks ran, and with which values.

- `Responses.Deed`: an operation, and `Responses.Run`: where a history of operations leads to.
- `Responses.stored`, `Responses.waiting`, `Responses.met`: what a history tells of the values of
  events, of queues, and of the events that were waited for or processed.
- `Responses.Effect`: all that is to be known of one operation.
- `Responses.Recorded`: events, handlers and hooks are as the history tells. `Recorded.step` says
  that an operation keeps it so.
- `Responses.hooks_run_once_in_order`: what a drain does after any history, and which hooks ran.
-/

namespace Parley

namespace Responses

variable {α : Type}

/-! ## Histories -/

/-- An operation on events and handlers, and what it answered. -/
inductive Deed (α : Type)
  | create (hooked : Bool)
  | handle (event : Nat) (v : α)
  | add (handler event : Nat)
  /-- Somebody waited for an event with success, and got this value. -/
  | wait (event : Nat) (answer : α)
  /-- Somebody waited for an event for some time, and in vain. -/
  | timeOut (event : Nat)
  /-- Somebody was told that a number of events were processed. -/
  | drain (handler count : Nat)

namespace Deed

def creates? : Deed α → Option Bool
  | create hooked => some hooked
  | _ => none

/-- The value that an event is given. -/
def gives? (event : Nat) : Deed α → Option α
  | handle event' v => if event' = event then some v else none
  | _ => none

/-- The event that is put into a queue. -/
def adds? (handler : Nat) : Deed α → Option Nat
  | add handler' event => if handler' = handler then some event else none
  | _ => none

/-- The number of events that are taken out of a queue. -/
def takes (handler : Nat) : Deed α → Nat
  | drain handler' count => if handler' = handler then count else 0
  | _ => 0

/-- The events that somebody waits for with success, or that are processed. -/
def meets (queue : Nat → List Nat) : Deed α → List Nat
  | wait event _ => [event]
  | drain handler count => (queue handler).take count
  | _ => []

end Deed

/-- Whether there was a hook when the event was created. Events are numbered as they are created. -/
def hasHook (past : List (Deed α)) (event : Nat) : Bool :=
  (past.filterMap (·.creates?)).reverse[event]? == some true

/-- The value that was stored last. Histories have the latest operation first. -/
def stored (past : List (Deed α)) (event : Nat) : Option α :=
  past.findSome? (·.gives? event)

/-- The events that were put into a queue, in their order. -/
def added (past : List (Deed α)) (handler : Nat) : List Nat :=
  (past.filterMap (·.adds? handler)).reverse

/-- The events that are left in a queue, in their order. -/
def waiting : List (Deed α) → Nat → List Nat
  | [], _ => []
  | d :: past, handler => (waiting past handler).drop (d.takes handler) ++ (d.adds? handler).toList

/-- The events that a handler has processed in all its drains, in their order. -/
def processed : List (Deed α) → Nat → List Nat
  | [], _ => []
  | d :: past, handler => processed past handler ++ (waiting past handler).take (d.takes handler)

/-- All events that were waited for with success or processed, in the order of this. -/
def met : List (Deed α) → List Nat
  | [] => []
  | d :: past => met past ++ d.meets (waiting past)

/-- A hook was told the value that its event had when it was first waited for or processed. -/
def ToldFirst (past : List (Deed α)) (call : HookCall α) : Prop :=
  ∃ d before, d :: before <:+ past ∧ call.event ∈ d.meets (waiting before) ∧
    call.event ∉ met before ∧ stored before call.event = some call.value

theorem ToldFirst.later {past : List (Deed α)} {call : HookCall α} (h : ToldFirst past call)
    (d : Deed α) : ToldFirst (d :: past) call := by
  obtain ⟨d', before, hsuffix, htold⟩ := h
  exact ⟨d', before, hsuffix.trans (List.suffix_cons d past), htold⟩

theorem added_cons (d : Deed α) (past : List (Deed α)) (h : Nat) :
    added (d :: past) h = added past h ++ (d.adds? h).toList := by
  unfold added
  cases hd : d.adds? h with
  | none => rw [List.filterMap_cons_none hd, Option.toList_none, List.append_nil]
  | some e => rw [List.filterMap_cons_some hd, List.reverse_cons, Option.toList_some]

/-- What was processed and what is left are what was added. -/
theorem processed_append_waiting (past : List (Deed α)) (h : Nat) :
    processed past h ++ waiting past h = added past h := by
  induction past with
  | nil => rfl
  | cons d past ih =>
    calc processed (d :: past) h ++ waiting (d :: past) h
        = processed past h ++ ((waiting past h).take (d.takes h) ++
            (waiting past h).drop (d.takes h)) ++ (d.adds? h).toList := by
          simp only [processed, waiting, List.append_assoc]
      _ = processed past h ++ waiting past h ++ (d.adds? h).toList := by
          rw [List.take_append_drop]
      _ = added (d :: past) h := by rw [ih, added_cons]

/-! ## Runs -/

/-- An operation on events and handlers that there are. -/
inductive Step : Responses α → Deed α → Responses α → Prop
  | create {r : Responses α} (hooked : Bool) :
      Step r (.create hooked) (r.addEvent ⟨none, hooked, none⟩)
  | handle {r : Responses α} {event : Nat} (v : α) (h : event < r.events.length) :
      Step r (.handle event v) (r.handle event v)
  | add {r : Responses α} {handler event : Nat} (hhandler : handler < r.handlers.length)
      (hevent : event < r.events.length) : Step r (.add handler event) (r.add handler event)
  /-- Waiting for a fulfilled event, for some time or for however long it takes. -/
  | wait {r r' : Responses α} {event : Nat} {v : α} (h : r.wait? event = some (v, r')) :
      Step r (.wait event v) r'
  /-- Waiting for some time, which does not fulfil the event. -/
  | timeOut {r : Responses α} {event : Nat} (h : event < r.events.length)
      (hvain : r.wait? event = none) : Step r (.timeOut event) r
  | drain {r : Responses α} {handler : Nat} (h : handler < r.handlers.length) :
      Step r (.drain handler (r.drain handler).1) (r.drain handler).2

/-- What a history of operations leads to, from a number of handlers with nothing to do. -/
inductive Run (handlers : Nat) : List (Deed α) → Responses α → Prop
  | start : Run handlers [] (.new handlers)
  | step {past : List (Deed α)} {r r' : Responses α} {d : Deed α} (run : Run handlers past r)
      (h : Step r d r') : Run handlers (d :: past) r'

/-! ## What an operation does -/

/-- All that is to be known of an operation that meets some events: what it does to queues, values
and hooks, and the hooks that it runs. -/
structure Effect (r : Responses α) (d : Deed α) (es : List Nat) (r' : Responses α) : Prop where
  queue_eq : ∀ h, r'.queue h = (r.queue h).drop (d.takes h) ++ (d.adds? h).toList
  length_events : r'.events.length = r.events.length + d.creates?.toList.length
  response?_eq : ∀ e, r'.response? e = (d.gives? e).or (r.response? e)
  isHooked_eq : ∀ e, r'.isHooked e =
    (r.isHooked e && !es.contains e || e == r.events.length && d.creates? == some true)
  isFulfilled : ∀ e ∈ es, r.isFulfilled e = true
  calls_eq : r'.calls = r.calls ++ (es.filter r.isHooked).eraseDups.filterMap r.call?

theorem response?_addEvent (r : Responses α) (hooked : Bool) (e : Nat) :
    (r.addEvent ⟨none, hooked, none⟩).response? e = r.response? e := by
  show (r.events ++ [_])[e]?.bind _ = r.events[e]?.bind _
  rw [getElem?_snoc]
  split
  · rename_i he
    rw [he, List.getElem?_eq_none (Nat.le_refl _)]
    rfl
  · rfl

/-- A new event has the next number. -/
theorem isHooked_addEvent (r : Responses α) (hooked : Bool) (e : Nat) :
    (r.addEvent ⟨none, hooked, none⟩).isHooked e =
      (r.isHooked e || e == r.events.length && hooked) := by
  show ((r.events ++ [_])[e]?.map _).getD false = ((r.events[e]?.map _).getD false || _)
  rw [getElem?_snoc]
  split
  · rename_i he
    rw [he, List.getElem?_eq_none (Nat.le_refl _), beq_self_eq_true]
    rfl
  · rename_i he
    rw [beq_false_of_ne he, Bool.false_and, Bool.or_false]

theorem effect_create (r : Responses α) (hooked : Bool) :
    Effect r (.create hooked) [] (r.addEvent ⟨none, hooked, none⟩) where
  queue_eq h := (List.append_nil _).symm
  length_events := List.length_append
  response?_eq := response?_addEvent r hooked
  isHooked_eq e := by
    rw [isHooked_addEvent]
    cases hooked <;> simp [Deed.creates?]
  isFulfilled := nofun
  calls_eq := (List.append_nil _).symm

@[simp] theorem queue_notify (r : Responses α) (e h : Nat) : (r.notify e).queue h = r.queue h := by
  unfold notify
  cases r.wokenBy e with
  | none => rfl
  | some h' => exact queue_raise r h' h

@[simp] theorem calls_notify (r : Responses α) (e : Nat) : (r.notify e).calls = r.calls := by
  unfold notify
  cases r.wokenBy e with
  | none => rfl
  | some h' => rfl

theorem events_store (r : Responses α) (e : Nat) (v : α) :
    (r.store e v).1.events = r.events.modify e fun x => (x.store v).1 := by
  unfold store
  cases hx : r.events[e]? with
  | none => exact (List.modify_eq_self (List.getElem?_eq_none_iff.mp hx)).symm
  | some x => exact set_eq_modify_of_some hx fun x => (x.store v).1

@[simp] theorem calls_store (r : Responses α) (e : Nat) (v : α) :
    (r.store e v).1.calls = r.calls := by
  unfold store
  cases r.events[e]? with
  | none => rfl
  | some x => rfl

/-- An operation that meets no events, and that leaves the hook of the one that it is at alone. -/
theorem effect_of_modify {r r' : Responses α} {d : Deed α} {e : Nat}
    {f : ResponseEvent α → ResponseEvent α} (hevents : r'.events = r.events.modify e f)
    (hhooked : ∀ x, (f x).hooked = x.hooked) (hcreates : d.creates? = none)
    (hvalue : ∀ e, r'.response? e = (d.gives? e).or (r.response? e))
    (hqueue : ∀ h, r'.queue h = (r.queue h).drop (d.takes h) ++ (d.adds? h).toList)
    (hcalls : r'.calls = r.calls) : Effect r d [] r' where
  queue_eq := hqueue
  length_events := by
    rw [hevents, List.length_modify, hcreates]
    rfl
  response?_eq := hvalue
  isHooked_eq e' := by
    rw [isHooked_of_modify hevents hhooked, hcreates]
    simp
  isFulfilled := nofun
  calls_eq := hcalls.trans (List.append_nil _).symm

theorem effect_handle {r : Responses α} {e : Nat} (he : e < r.events.length) (v : α) :
    Effect r (.handle e v) [] (r.handle e v) := by
  have hevents : (r.handle e v).events = r.events.modify e fun x => (x.store v).1 := by
    rw [handle_eq, ← events_store]
    split
    · rfl
    · exact events_notify _ e
  refine effect_of_modify hevents (fun _ => rfl) rfl (fun e' => ?_) (fun h => ?_) ?_
  · show _ = (if e = e' then some v else none).or _
    rw [response?, hevents, List.getElem?_modify, response?]
    by_cases hsame : e = e'
    · rw [← hsame, List.getElem?_eq_getElem he, if_pos rfl]
      show (if e = e then (r.events[e].store v).1 else r.events[e]).value = some v
      rw [if_pos rfl]
      rfl
    · rw [if_neg hsame]
      cases r.events[e']? with
      | none => rfl
      | some x =>
        show (if e = e' then (x.store v).1 else x).value = x.value
        rw [if_neg hsame]
  · have hstored := queue_of_handlers (handlers_store r e v) h
    rw [handle_eq]
    split
    · exact hstored.trans (List.append_nil _).symm
    · exact (queue_notify _ e h).trans (hstored.trans (List.append_nil _).symm)
  · rw [handle_eq]
    split
    · exact calls_store r e v
    · rw [calls_notify, calls_store]

theorem effect_add {r : Responses α} {h e : Nat} (hh : h < r.handlers.length) :
    Effect r (.add h e) [] (r.add h e) := by
  have hevents : (r.add h e).events = r.events.modify e (·.attach h) := by
    unfold add
    dsimp only
    split <;> rfl
  have hvalue := response?_of_modify hevents fun _ => rfl
  refine effect_of_modify hevents (fun _ => rfl) rfl hvalue (fun h' => ?_) ?_
  · have hqueue : (r.add h e).queue h' = ((r.attach h e).enqueue h e).queue h' := by
      unfold add
      dsimp only
      split
      · exact queue_raise _ h h'
      · rfl
    have hattach : h < (r.attach h e).handlers.length := hh
    rw [hqueue, queue_enqueue hattach]
    show r.queue h' ++ (if h = h' then [e] else []) =
      r.queue h' ++ (if h = h' then some e else none).toList
    split <;> rfl
  · unfold add
    dsimp only
    split <;> rfl

/-- Events that are processed one after the other, once some of them were taken out of a queue. -/
theorem effect_processAll {r : Responses α} {es : List Nat}
    (hes : ∀ e ∈ es, r.isFulfilled e = true) {d : Deed α} (hcreates : d.creates? = none)
    (hgives : ∀ e, d.gives? e = none) (hadds : ∀ h, d.adds? h = none) {q : Responses α}
    (hq : q.events = r.events) (hcalls : q.calls = r.calls)
    (hqueue : ∀ h, q.queue h = (r.queue h).drop (d.takes h)) : Effect r d es (q.processAll es) := by
  have hfulfilled : q.isFulfilled = r.isFulfilled := by
    funext e
    rw [isFulfilled_eq, isFulfilled_eq, hq]
  have hhooked : q.isHooked = r.isHooked := by
    funext e
    rw [isHooked, isHooked, hq]
  have hvalue : q.response? = r.response? := by
    funext e
    rw [response?, response?, hq]
  have hcall : q.call? = r.call? := by
    funext e
    rw [call?, call?, hvalue]
  have hes' : ∀ e ∈ es, q.isFulfilled e = true := by
    rw [hfulfilled]
    exact hes
  exact {
    queue_eq := fun h => by
      rw [queue_of_handlers (handlers_processAll q es), hqueue, hadds, Option.toList_none,
        List.append_nil]
    length_events := by rw [length_events_processAll, hq, hcreates]; rfl
    response?_eq := fun e => by rw [response?_processAll, hvalue, hgives, Option.none_or]
    isHooked_eq := fun e => by
      rw [isHooked_processAll hes', hhooked, hcreates]
      simp
    isFulfilled := hes
    calls_eq := by rw [calls_processAll hes', hcalls, hhooked, hcall] }

/-- What an operation does, each of them. -/
theorem Step.effect {r r' : Responses α} {d : Deed α} (h : Step r d r') :
    Effect r d (d.meets r.queue) r' := by
  cases h with
  | create hooked => exact effect_create r hooked
  | handle v he => exact effect_handle he v
  | add hh he => exact effect_add hh
  | @wait _ e v hwait =>
    obtain ⟨hv, rfl⟩ := wait?_eq_some_iff.mp hwait
    have hfulfilled : ∀ e' ∈ [e], r.isFulfilled e' = true := by
      intro e' he'
      rw [List.mem_singleton.mp he', isFulfilled_eq_isSome, hv]
      rfl
    exact effect_processAll hfulfilled rfl (fun _ => rfl) (fun _ => rfl) rfl rfl fun _ => rfl
  | timeOut he hvain =>
    have hnone : ∀ e ∈ ([] : List Nat), r.isFulfilled e = true := nofun
    exact effect_processAll hnone rfl (fun _ => rfl) (fun _ => rfl) rfl rfl fun _ => rfl
  | @drain h hh =>
    -- by its answer one can tell which events it took
    have htaken : (r.queue h).take (r.drain h).1 = r.ready h := by
      rw [drain_eq]
      exact (List.prefix_iff_eq_take.mp (List.takeWhile_prefix _)).symm
    show Effect r _ ((r.queue h).take (r.drain h).1) _
    rw [htaken, drain_eq]
    refine effect_processAll (forall_ready r h) rfl (fun _ => rfl) (fun _ => rfl) rfl rfl ?_
    intro h'
    rw [queue_skip]
    show _ = (r.queue h').drop (if h = h' then (r.ready h).length else 0)
    by_cases hsame : h = h'
    · rw [if_pos hsame.symm, if_pos hsame, hsame]
    · rw [if_neg (Ne.symm hsame), if_neg hsame, List.drop_zero]

/-! ## What a history tells -/

/-- Events, handlers and hooks are as the history tells. -/
structure Recorded (past : List (Deed α)) (r : Responses α) : Prop where
  queue_eq : r.queue = waiting past
  length_events : r.events.length = (past.filterMap (·.creates?)).length
  response?_eq : ∀ e, r.response? e = stored past e
  isHooked_eq : ∀ e, r.isHooked e = (hasHook past e && !(met past).contains e)
  /-- Who waits with success, or processes an event, finds a value. -/
  stored_of_met : ∀ e ∈ met past, (stored past e).isSome = true
  events_calls : r.calls.map (·.event) = ((met past).filter (hasHook past)).eraseDups
  toldFirst : ∀ call ∈ r.calls, ToldFirst past call

namespace Recorded

theorem new (handlers : Nat) : Recorded ([] : List (Deed α)) (.new handlers) where
  queue_eq := by
    funext h
    show ((List.replicate handlers ResponseHandler.new)[h]?.map _).getD [] = []
    rw [List.getElem?_replicate]
    split <;> rfl
  length_events := rfl
  response?_eq _ := rfl
  isHooked_eq _ := rfl
  stored_of_met := nofun
  events_calls := rfl
  toldFirst := nofun

end Recorded

theorem lt_of_isFulfilled {r : Responses α} {e : Nat} (h : r.isFulfilled e = true) :
    e < r.events.length := by
  rw [isFulfilled_eq] at h
  by_contra hlt
  rw [List.getElem?_eq_none (Nat.not_lt.mp hlt)] at h
  exact Bool.false_ne_true h

theorem stored_cons (d : Deed α) (past : List (Deed α)) (e : Nat) :
    stored (d :: past) e = (d.gives? e).or (stored past e) := by
  rw [stored, List.findSome?_cons]
  cases d.gives? e with
  | none => rfl
  | some v => rfl

theorem hasHook_cons (d : Deed α) (past : List (Deed α)) (e : Nat) :
    hasHook (d :: past) e =
      (hasHook past e || e == (past.filterMap (·.creates?)).length && d.creates? == some true) := by
  unfold hasHook
  cases hd : d.creates? with
  | none =>
    rw [List.filterMap_cons_none hd]
    simp
  | some hooked =>
    rw [List.filterMap_cons_some hd, List.reverse_cons, getElem?_snoc, List.length_reverse]
    split
    · rename_i he
      have hnone : (past.filterMap (·.creates?)).reverse[e]? = none :=
        List.getElem?_eq_none (by rw [List.length_reverse]; exact Nat.le_of_eq he.symm)
      rw [hnone, he, beq_self_eq_true]
      rfl
    · rename_i he
      rw [beq_false_of_ne he, Bool.false_and, Bool.or_false]

/-- The calls of hooks belong to the events that have a value. -/
theorem map_event_filterMap {r : Responses α} {es : List Nat}
    (h : ∀ e ∈ es, r.isFulfilled e = true) : (es.filterMap r.call?).map (·.event) = es := by
  induction es with
  | nil => rfl
  | cons e es ih =>
    obtain ⟨v, hcall⟩ := exists_call (h e List.mem_cons_self)
    rw [List.filterMap_cons_some hcall, List.map_cons,
      ih fun e' he' => h e' (List.mem_cons_of_mem _ he')]

namespace Recorded

variable {past : List (Deed α)} {r : Responses α}

theorem isFulfilled_eq (hr : Recorded past r) (e : Nat) :
    r.isFulfilled e = (stored past e).isSome := by
  rw [isFulfilled_eq_isSome, hr.response?_eq]

/-- An operation keeps what the history tells, if the operation is put on record. -/
theorem step (hr : Recorded past r) {d : Deed α} {r' : Responses α} (h : Step r d r') :
    Recorded (d :: past) r' := by
  have heffect := h.effect
  rw [hr.queue_eq] at heffect
  generalize hes : d.meets (waiting past) = es at heffect
  have hmet : met (d :: past) = met past ++ es := by rw [met, hes]
  have hfulfilled : ∀ e ∈ met past ++ es, r.isFulfilled e = true := by
    intro e he
    rcases List.mem_append.mp he with hbefore | hnow
    · rw [hr.isFulfilled_eq]
      exact hr.stored_of_met e hbefore
    · exact heffect.isFulfilled e hnow
  have hlt : ∀ e ∈ met past ++ es, e < r.events.length :=
    fun e he => lt_of_isFulfilled (hfulfilled e he)
  -- the hook of an event that is created now is not run by now
  have hhook : ∀ e ∈ met past ++ es, hasHook (d :: past) e = hasHook past e := by
    intro e he
    rw [hasHook_cons, ← hr.length_events, beq_false_of_ne (Nat.ne_of_lt (hlt e he)),
      Bool.false_and, Bool.or_false]
  refine {
    queue_eq := ?_, length_events := ?_, response?_eq := ?_, isHooked_eq := ?_,
    stored_of_met := ?_, events_calls := ?_, toldFirst := ?_ }
  · funext h
    rw [heffect.queue_eq, hr.queue_eq, waiting]
  · rw [heffect.length_events, hr.length_events]
    cases hd : d.creates? with
    | none => rw [List.filterMap_cons_none hd]; rfl
    | some hooked => rw [List.filterMap_cons_some hd]; rfl
  · intro e
    rw [heffect.response?_eq, hr.response?_eq, stored_cons]
  · intro e
    rw [heffect.isHooked_eq, hr.isHooked_eq, hmet, hasHook_cons, hr.length_events]
    by_cases he : e ∈ met past ++ es
    · have hne := Nat.ne_of_lt (hlt e he)
      rw [hr.length_events] at hne
      rw [beq_false_of_ne hne]
      simp [Bool.and_assoc]
    · rw [List.contains_eq_mem, List.contains_eq_mem, List.contains_eq_mem]
      rw [List.mem_append, not_or] at he
      simp [he.1, he.2]
  · intro e he
    rw [hmet] at he
    rw [stored_cons, Option.isSome_or, ← hr.isFulfilled_eq, hfulfilled e he, Bool.or_true]
  · have hnow : ∀ e ∈ (es.filter r.isHooked).eraseDups, r.isFulfilled e = true := by
      intro e he
      exact heffect.isFulfilled e (List.mem_filter.mp (List.mem_eraseDups.mp he)).1
    have hleft : (es.filter (hasHook past)).removeAll ((met past).filter (hasHook past)) =
        es.filter r.isHooked := by
      rw [List.removeAll, List.filter_filter]
      refine List.filter_congr fun e _ => ?_
      rw [hr.isHooked_eq]
      cases hhas : hasHook past e with
      | false => simp
      | true => simp [hhas]
    rw [heffect.calls_eq, List.map_append, map_event_filterMap hnow, hr.events_calls, hmet,
      List.filter_congr hhook, List.filter_append, List.eraseDups_append, hleft]
  · intro call hcall
    rw [heffect.calls_eq, List.mem_append] at hcall
    rcases hcall with hbefore | hnow
    · exact (hr.toldFirst call hbefore).later d
    · obtain ⟨e, he, hvalue⟩ := List.mem_filterMap.mp hnow
      obtain ⟨hes', hhooked⟩ := List.mem_filter.mp (List.mem_eraseDups.mp he)
      obtain ⟨v, hv, rfl⟩ := Option.map_eq_some_iff.mp hvalue
      rw [hr.isHooked_eq, Bool.and_eq_true, Bool.not_eq_true', List.contains_eq_mem,
        decide_eq_false_iff_not] at hhooked
      refine ⟨d, past, List.suffix_rfl, ?_, hhooked.2, ?_⟩
      · rw [hes]
        exact hes'
      · rw [← hr.response?_eq]
        exact hv

end Recorded

theorem Run.recorded {handlers : Nat} {past : List (Deed α)} {r : Responses α}
    (run : Run handlers past r) : Recorded past r := by
  induction run with
  | start => exact .new handlers
  | step run h ih => exact ih.step h

/-! ## After any history -/

theorem nodup_eraseDups (es : List Nat) : es.eraseDups.Nodup := by
  cases es with
  | nil => exact List.nodup_nil
  | cons e es =>
    rw [List.eraseDups_cons, List.nodup_cons, List.mem_eraseDups, List.mem_filter]
    refine ⟨fun hmem => ?_, nodup_eraseDups _⟩
    rw [beq_self_eq_true] at hmem
    exact Bool.false_ne_true hmem.2
termination_by es.length
decreasing_by exact Nat.lt_succ_of_le (List.length_filter_le _ _)

/-- A drain takes the longest part of its queue, from the head on, that has fulfilled events only.
It says how many these are, and runs the hooks that they still have, in their order. What a handler
has processed is a beginning of what was added to it, and its queue is the rest. No hook runs twice,
whoever waits for its event or processes it, and each is told the value that was stored last before
somebody first did so. From then on it has run. -/
theorem hooks_run_once_in_order {handlers : Nat} {past : List (Deed α)} {r : Responses α}
    (run : Run handlers past r) :
    (∀ h taken, taken = (r.queue h).takeWhile (fun e => (stored past e).isSome) →
      (r.drain h).1 = taken.length ∧
      (∀ h', (r.drain h).2.queue h' =
        if h' = h then (r.queue h).drop taken.length else r.queue h') ∧
      (r.drain h).2.calls.map (·.event) = r.calls.map (·.event) ++
        (taken.filter fun e => hasHook past e && !(met past).contains e).eraseDups) ∧
    (∀ h, processed past h ++ r.queue h = added past h) ∧
    (r.calls.map (·.event)).Nodup ∧
    (∀ call ∈ r.calls, hasHook past call.event = true ∧ ToldFirst past call) ∧
    ∀ e ∈ met past, hasHook past e = true → ∃ v, ⟨e, v⟩ ∈ r.calls := by
  have hr := run.recorded
  refine ⟨?_, ?_, ?_, ?_, ?_⟩
  · intro h taken htaken
    have hready : r.ready h = taken := by
      rw [htaken, ready, funext hr.isFulfilled_eq]
    have hhooked : r.isHooked = fun e => hasHook past e && !(met past).contains e :=
      funext hr.isHooked_eq
    have hcalled : ∀ e ∈ (taken.filter r.isHooked).eraseDups, r.isFulfilled e = true := by
      intro e he
      rw [List.mem_eraseDups, List.mem_filter, ← hready] at he
      exact r.forall_ready h e he.1
    have hes : ∀ e ∈ taken, (r.skip h taken.length).isFulfilled e = true :=
      hready ▸ r.forall_ready h
    rw [drain_eq, hready]
    refine ⟨rfl, fun h' => ?_, ?_⟩
    · rw [queue_of_handlers (handlers_processAll _ _), queue_skip]
    · rw [calls_processAll hes, List.map_append, ← hhooked]
      exact congrArg (_ ++ ·) (map_event_filterMap hcalled)
  · intro h
    rw [hr.queue_eq, processed_append_waiting]
  · rw [hr.events_calls]
    exact nodup_eraseDups _
  · intro call hcall
    have hmem : call.event ∈ r.calls.map (·.event) := List.mem_map_of_mem hcall
    rw [hr.events_calls, List.mem_eraseDups, List.mem_filter] at hmem
    exact ⟨hmem.2, hr.toldFirst call hcall⟩
  · intro e he hhook
    have hmem : e ∈ r.calls.map (·.event) := by
      rw [hr.events_calls, List.mem_eraseDups, List.mem_filter]
      exact ⟨he, hhook⟩
    obtain ⟨⟨_, v⟩, hcall, rfl⟩ := List.mem_map.mp hmem
    exact ⟨v, hcall⟩

/-- One event is in both queues, and one twice in the same. Each is given another value once it has
one, and somebody waits for one of them, first in vain. -/
def busyPast : List (Deed Nat) :=
  [.handle 0 6, .handle 1 9, .wait 1 8, .handle 1 8, .handle 1 7, .timeOut 1, .drain 0 0,
    .handle 0 5, .add 0 2, .add 1 0, .add 0 1, .add 0 0, .add 0 1, .create false, .create true,
    .create true]

/-- What it leads to. -/
def busy : Responses Nat where
  events := [⟨some 6, true, some 1⟩, ⟨some 9, false, some 0⟩, ⟨none, false, some 0⟩]
  handlers := [⟨[1, 0, 1, 2], false, true⟩, ⟨[0], false, true⟩]
  calls := [⟨1, 8⟩]

theorem run_busy : Run 2 busyPast busy := by
  have hcreated : Run 2 (busyPast.drop 13) _ :=
    .step (.step (.step .start (.create true)) (.create true)) (.create false)
  have hadded : Run 2 (busyPast.drop 8) _ :=
    .step (.step (.step (.step (.step hcreated (.add (by decide) (by decide)))
      (.add (by decide) (by decide))) (.add (by decide) (by decide)))
      (.add (by decide) (by decide))) (.add (by decide) (by decide))
  have hvain : Run 2 (busyPast.drop 5) _ :=
    .step (.step (.step hadded (.handle 5 (by decide))) (.drain (by decide)))
      (.timeOut (by decide) rfl)
  have hwaited : Run 2 (busyPast.drop 2) _ :=
    .step (.step (.step hvain (.handle 7 (by decide))) (.handle 8 (by decide))) (.wait rfl)
  exact .step (.step hwaited (.handle 9 (by decide))) (.handle 6 (by decide))

/-- The next drain of the first queue processes three events, and runs the one hook that is left. -/
theorem busy_hooks_run_once :
    Run 2 busyPast busy ∧
    (busy.drain 0).1 = 3 ∧
    (busy.drain 0).2.queue 0 = [2] ∧
    (busy.drain 0).2.queue 1 = [0] ∧
    (busy.drain 0).2.calls.map (·.event) = [1, 0] ∧
    (∀ h, processed busyPast h ++ busy.queue h = added busyPast h) ∧
    (busy.calls.map (·.event)).Nodup ∧
    (∀ call ∈ busy.calls, hasHook busyPast call.event = true ∧ ToldFirst busyPast call) ∧
    ∃ v, ⟨1, v⟩ ∈ busy.calls := by
  obtain ⟨hdrain, hqueues, honce, htold, hrun⟩ := hooks_run_once_in_order run_busy
  obtain ⟨hcount, hleft, hcalls⟩ := hdrain 0 [1, 0, 1] (by decide)
  exact ⟨run_busy, hcount, hleft 0, hleft 1, hcalls, hqueues, honce, htold,
    hrun 1 (by decide) (by decide)⟩

end Responses

end Parley
