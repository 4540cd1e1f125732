import Parley.Proofs.Response.Threads

/-!
# What the threads do to events and handlers

Adding an event, giving it a value and stopping a handler touch events and handlers step by step. What
one step does is said here once, for any event and any handler.

- `Todo.wokenBy_act`, `Todo.isFulfilled_act`: whom an event wakes and whether it is fulfilled, after a
  step of a thread.
- `Todo.exists_moves`: what a step of a thread makes of a handler.
- `Threads.Sound`: what holds of threads and events, whatever the loops of the handlers do.
-/

namespace Parley

/-! ## Steps on events -/

namespace Todo

variable {α : Type}

/-- What holds of an event or a handler while a thread is at it. -/
def Known (home : Nat → Nat) (r : Responses α) : Todo α → Prop
  | attach handler event => home event = handler ∧ event < r.events.length
  | look handler event | enqueue handler event _ => r.wokenBy event = some handler
  | store event _ => event < r.events.length
  | notify _ | halt _ | raise _ => True

theorem wokenBy_act (r : Responses α) (t : Todo α) (e : Nat) :
    (t.act r).1.wokenBy e = r.wokenBy e ∨
      ∃ h, t = .attach h e ∧ (t.act r).1.wokenBy e = some h := by
  cases t with
  | attach h e' =>
    show (r.attach h e').wokenBy e = _ ∨ ∃ h', _ ∧ (r.attach h e').wokenBy e = _
    rw [Responses.wokenBy_attach]
    by_cases he : e' = e ∧ e' < r.events.length
    · obtain ⟨rfl, hlt⟩ := he
      exact .inr ⟨h, rfl, if_pos ⟨rfl, hlt⟩⟩
    · exact .inl (if_neg he)
  | store e' v => exact .inl (r.wokenBy_store e' v e)
  | notify e' =>
    refine .inl ?_
    show (r.notify e').events[e]?.bind _ = _
    rw [Responses.events_notify]
    rfl
  | look h e' => exact .inl rfl
  | enqueue h e' found => exact .inl rfl
  | halt h => exact .inl rfl
  | raise h => exact .inl rfl

theorem isFulfilled_act (r : Responses α) (t : Todo α) (e : Nat) :
    (t.act r).1.isFulfilled e = true ↔
      r.isFulfilled e = true ∨ ∃ v, t = .store e v ∧ e < r.events.length := by
  have hsame : (∀ v, t ≠ .store e v) → (t.act r).1.isFulfilled e = r.isFulfilled e →
      ((t.act r).1.isFulfilled e = true ↔
        r.isFulfilled e = true ∨ ∃ v, t = .store e v ∧ e < r.events.length) := by
    intro hne h
    rw [h]
    exact ⟨.inl, fun h => h.resolve_right fun ⟨v, ht, _⟩ => hne v ht⟩
  cases t with
  | store e' v =>
    show (r.store e' v).1.isFulfilled e = true ↔ _
    rw [Responses.isFulfilled_store]
    refine or_congr_right ⟨?_, ?_⟩
    · rintro ⟨rfl, hlt⟩
      exact ⟨v, rfl, hlt⟩
    · rintro ⟨v', ht, hlt⟩
      cases ht
      exact ⟨rfl, hlt⟩
  | attach h e' => exact hsame nofun (r.isFulfilled_attach h e' e)
  | notify e' =>
    refine hsame nofun ?_
    rw [Responses.isFulfilled_eq, Responses.isFulfilled_eq]
    show (r.notify e').events[e]?.any _ = _
    rw [Responses.events_notify]
  | look h e' => exact hsame nofun rfl
  | enqueue h e' found => exact hsame nofun rfl
  | halt h => exact hsame nofun rfl
  | raise h => exact hsame nofun rfl

theorem length_events_act (r : Responses α) (t : Todo α) :
    (t.act r).1.events.length = r.events.length := by
  cases t with
  | attach h e => exact List.length_modify _ _ _
  | store e v => exact r.length_events_store e v
  | notify e =>
    show (r.notify e).events.length = _
    rw [Responses.events_notify]
  | look h e => rfl
  | enqueue h e found => rfl
  | halt h => rfl
  | raise h => rfl

theorem length_handlers_act (r : Responses α) (t : Todo α) :
    (t.act r).1.handlers.length = r.handlers.length := by
  cases t with
  | store e v =>
    show (r.store e v).1.handlers.length = _
    rw [Responses.handlers_store]
  | notify e =>
    show (r.notify e).handlers.length = _
    unfold Responses.notify
    cases r.wokenBy e with
    | none => rfl
    | some h => exact List.length_modify _ _ _
  | enqueue h e found => exact List.length_modify _ _ _
  | halt h => exact List.length_modify _ _ _
  | raise h => exact List.length_modify _ _ _
  | attach h e => rfl
  | look h e => rfl

/-! ## Steps on handlers -/

/-- The step raises the signal of a handler. -/
def Rouses (r : Responses α) (h : Nat) : Todo α → Prop
  | raise handler => handler = h
  | notify event => r.wokenBy event = some h
  | _ => False

/-- What a step makes of a handler. -/
structure Moves (r : Responses α) (t : Todo α) (h : Nat) (x x' : ResponseHandler) : Prop where
  raised : x.raised = true → x'.raised = true
  rouses : t.Rouses r h → x'.raised = true
  stopped : x'.stopped = true ↔ x.stopped = true ∨ t = .halt h
  queue : x'.queue = x.queue ∨ ∃ e found, t = .enqueue h e found ∧ x'.queue = x.queue ++ [e]

theorem moves_self {r : Responses α} {t : Todo α} {h : Nat} (x : ResponseHandler)
    (hrouses : ¬ t.Rouses r h) (hhalt : t ≠ .halt h) : Moves r t h x x where
  raised := fun hx => hx
  rouses := fun ht => absurd ht hrouses
  stopped := ⟨.inl, fun hx => hx.resolve_right hhalt⟩
  queue := .inl rfl

theorem moves_raise {r : Responses α} {t : Todo α} {h : Nat} (x : ResponseHandler)
    (hhalt : t ≠ .halt h) : Moves r t h x { x with raised := true } where
  raised := fun _ => rfl
  rouses := fun _ => rfl
  stopped := ⟨.inl, fun hx => hx.resolve_right hhalt⟩
  queue := .inl rfl

/-- Every step moves every handler, if only to where it was. -/
theorem exists_moves {r : Responses α} {h : Nat} {x : ResponseHandler}
    (hx : r.handlers[h]? = some x) (t : Todo α) :
    ∃ x', (t.act r).1.handlers[h]? = some x' ∧ Moves r t h x x' := by
  have hmodify := fun i f => Responses.getElem?_modify_of_some hx i f
  cases t with
  | attach i e => exact ⟨x, hx, moves_self x nofun nofun⟩
  | look i e => exact ⟨x, hx, moves_self x nofun nofun⟩
  | store e v =>
    refine ⟨x, ?_, moves_self x nofun nofun⟩
    show (r.store e v).1.handlers[h]? = _
    rw [Responses.handlers_store, hx]
  | enqueue i e found =>
    refine ⟨_, hmodify i _, ?_⟩
    by_cases hi : i = h
    · rw [if_pos hi]
      refine ⟨fun hx => hx, nofun, ⟨.inl, fun hx => hx.resolve_right nofun⟩, ?_⟩
      exact .inr ⟨e, found, by rw [hi], rfl⟩
    · rw [if_neg hi]
      exact moves_self x nofun nofun
  | halt i =>
    refine ⟨_, hmodify i _, ?_⟩
    by_cases hi : i = h
    · rw [if_pos hi]
      exact ⟨fun hx => hx, nofun, ⟨fun _ => .inr (by rw [hi]), fun _ => rfl⟩, .inl rfl⟩
    · rw [if_neg hi]
      refine moves_self x nofun ?_
      rintro ⟨⟩
      exact hi rfl
  | raise i =>
    refine ⟨_, hmodify i _, ?_⟩
    by_cases hi : i = h
    · rw [if_pos hi]
      exact moves_raise x nofun
    · rw [if_neg hi]
      exact moves_self x hi nofun
  | notify e =>
    show ∃ x', (r.notify e).handlers[h]? = _ ∧ _
    unfold Responses.notify
    cases hwoken : r.wokenBy e with
    | none =>
      refine ⟨x, hx, moves_self x ?_ nofun⟩
      intro hrouses
      rw [Rouses, hwoken] at hrouses
      cases hrouses
    | some i =>
      refine ⟨_, hmodify i _, ?_⟩
      by_cases hi : i = h
      · rw [if_pos hi]
        exact moves_raise x nofun
      · rw [if_neg hi]
        refine moves_self x ?_ nofun
        intro hrouses
        rw [Rouses, hwoken] at hrouses
        exact hi (Option.some.inj hrouses)

/-! ## What a thread knows of the event it is at -/

/-- An event wakes whom it woke, and there are no fewer events. -/
theorem Known.mono {home : Nat → Nat} {r r' : Responses α} {t : Todo α}
    (ht : t.Known home r) (hlength : r.events.length ≤ r'.events.length)
    (hkeeps : ∀ e i, r.wokenBy e = some i → r'.wokenBy e = some i) : t.Known home r' := by
  cases t with
  | attach i e => exact ⟨ht.1, Nat.lt_of_lt_of_le ht.2 hlength⟩
  | look i e => exact hkeeps e i ht
  | enqueue i e found => exact hkeeps e i ht
  | store e v => exact Nat.lt_of_lt_of_le ht hlength
  | notify e => trivial
  | halt i => trivial
  | raise i => trivial

theorem Known.next {home : Nat → Nat} {r : Responses α} {t u : Todo α} (ht : t.Known home r)
    (hu : (t.act r).2 = some u) : u.Known home (t.act r).1 := by
  cases t with
  | attach i e =>
    cases hu
    show (r.attach i e).wokenBy e = some i
    rw [Responses.wokenBy_attach, if_pos ⟨rfl, ht.2⟩]
  | look i e =>
    cases hu
    exact ht
  | enqueue i e found =>
    cases found with
    | false => cases hu
    | true =>
      cases hu
      trivial
  | store e v =>
    simp only [act] at hu
    split at hu <;> cases hu
    trivial
  | notify e => cases hu
  | halt i =>
    cases hu
    trivial
  | raise i => cases hu

/-- What a thread overlooks from now on is not fulfilled now. -/
theorem isFulfilled_of_overlooked {r : Responses α} {t u : Todo α} {e : Nat}
    (hu : (t.act r).2 = some u) (he : u.overlooked = some e) :
    (t.act r).1.isFulfilled e = false := by
  cases t with
  | look i e' =>
    cases hu
    show r.isFulfilled e = false
    cases hfound : r.isFulfilled e' with
    | true => simp [hfound, overlooked] at he
    | false =>
      simp only [hfound, overlooked, Option.some.injEq] at he
      rw [← he, hfound]
  | attach i e' => cases hu; cases he
  | enqueue i e' found =>
    cases found with
    | false => cases hu
    | true =>
      cases hu
      cases he
  | store e' v =>
    simp only [act] at hu
    split at hu <;> cases hu
    cases he
  | notify e' => cases hu
  | halt i => cases hu; cases he
  | raise i => cases hu

end Todo

namespace Threads

variable {α : Type} {home : Nat → Nat}

/-! ## Threads and events -/

/-- What holds of the events and of the threads at work on them, whatever the loops do. -/
structure Sound (home : Nat → Nat) (w : Threads α) : Prop where
  /-- An event wakes its home or nobody. -/
  wakes : ∀ e h, w.responses.wokenBy e = some h → home e = h
  known : ∀ t ∈ w.tasks, t.Known home w.responses
  /-- What is overlooked and fulfilled all the same has been missed. -/
  overlooked : ∀ t ∈ w.tasks, ∀ e, t.overlooked = some e →
    w.responses.isFulfilled e = true → e ∈ w.missed
  missed : ∀ e ∈ w.missed, w.responses.isFulfilled e = true

theorem sound_start (handlers : Nat) : Sound home (start handlers : Threads α) :=
  ⟨nofun, nofun, nofun, nofun⟩

/-- Nothing is lost by a step that leaves the events as they are. -/
theorem Sound.of_same {w w' : Threads α} (hw : Sound home w)
    (hlength : w.responses.events.length ≤ w'.responses.events.length)
    (hwoken : ∀ e, w'.responses.wokenBy e = w.responses.wokenBy e)
    (hfulfilled : ∀ e, w'.responses.isFulfilled e = w.responses.isFulfilled e)
    (htasks : ∀ t ∈ w'.tasks, t ∈ w.tasks ∨
      (t.Known home w'.responses ∧ t.overlooked = none))
    (hmissed : w'.missed = w.missed) : Sound home w' := by
  refine ⟨?_, ?_, ?_, ?_⟩
  · intro e h he
    rw [hwoken] at he
    exact hw.wakes e h he
  · intro t ht
    rcases htasks t ht with hold | ⟨hknown, -⟩
    · refine (hw.known t hold).mono hlength ?_
      intro e i he
      rw [hwoken, he]
    · exact hknown
  · intro t ht e he hful
    rw [hfulfilled] at hful
    rw [hmissed]
    rcases htasks t ht with hold | ⟨-, hnone⟩
    · exact hw.overlooked t hold e he hful
    · rw [hnone] at he
      cases he
  · intro e he
    rw [hmissed] at he
    rw [hfulfilled]
    exact hw.missed e he

theorem mem_of_mem_act {w : Threads α} {front back : List (Todo α)} {t u : Todo α}
    (h : w.tasks = front ++ t :: back) (hu : u ∈ front ++ (t.act w.responses).2.toList ++ back) :
    u ∈ w.tasks ∨ (t.act w.responses).2 = some u := by
  rw [h]
  simp only [List.mem_append, List.mem_cons, Option.mem_toList] at hu ⊢
  rcases hu with (hu | hu) | hu
  · exact .inl (.inl hu)
  · exact .inr hu
  · exact .inl (.inr (.inr hu))

theorem mem_act_of_mem {w : Threads α} {front back : List (Todo α)} {t u : Todo α}
    (h : w.tasks = front ++ t :: back) (hu : u ∈ w.tasks) :
    u = t ∨ u ∈ front ++ (t.act w.responses).2.toList ++ back := by
  rw [h] at hu
  simp only [List.mem_append, List.mem_cons] at hu ⊢
  rcases hu with hu | hu | hu
  · exact .inr (.inl (.inl hu))
  · exact .inl hu
  · exact .inr (.inr hu)

theorem mem_act_of_next {w : Threads α} {front back : List (Todo α)} {t u : Todo α}
    (hu : (t.act w.responses).2 = some u) :
    u ∈ front ++ (t.act w.responses).2.toList ++ back := by
  rw [hu]
  exact List.mem_append_left _ (List.mem_append_right _ List.mem_cons_self)

/-- An event that wakes a handler goes on to wake it: it is only ever attached to its home. -/
theorem Sound.wokenBy_act {w : Threads α} (hw : Sound home w) {t : Todo α} (ht : t ∈ w.tasks)
    {e i : Nat} (he : w.responses.wokenBy e = some i) :
    (t.act w.responses).1.wokenBy e = some i := by
  rcases t.wokenBy_act w.responses e with hsame | ⟨j, rfl, hnew⟩
  · rw [hsame, he]
  · rw [hnew, ← hw.wakes e i he, ← (hw.known _ ht).1]

theorem Sound.act {w : Threads α} (hw : Sound home w) {front back : List (Todo α)} {t : Todo α}
    (h : w.tasks = front ++ t :: back) :
    Sound home { w with
      responses := (t.act w.responses).1
      tasks := front ++ (t.act w.responses).2.toList ++ back
      missed := t.misses w.tasks ++ w.missed } := by
  have ht : t ∈ w.tasks := by
    rw [h]
    exact List.mem_append_right _ List.mem_cons_self
  refine ⟨?_, ?_, ?_, ?_⟩
  · intro e i he
    rcases t.wokenBy_act w.responses e with hsame | ⟨j, rfl, hnew⟩
    · rw [hsame] at he
      exact hw.wakes e i he
    · rw [hnew] at he
      cases he
      exact (hw.known _ ht).1
  · intro u hu
    rcases mem_of_mem_act h hu with hold | hnext
    · have hlength := Nat.le_of_eq (t.length_events_act w.responses).symm
      exact (hw.known u hold).mono hlength fun e i he => hw.wokenBy_act ht he
    · exact (hw.known t ht).next hnext
  · intro u hu e he hful
    rcases mem_of_mem_act h hu with hold | hnext
    · rcases (t.isFulfilled_act w.responses e).mp hful with hful | ⟨v, rfl, -⟩
      · exact List.mem_append_right _ (hw.overlooked u hold e he hful)
      · -- the event is fulfilled right now, and the other thread does not see it
        have hmem : e ∈ w.tasks.filterMap Todo.overlooked := List.mem_filterMap.mpr ⟨u, hold, he⟩
        refine List.mem_append_left _ ?_
        simp [Todo.misses, hmem]
    · have hnot := Todo.isFulfilled_of_overlooked hnext he
      rw [show (t.act w.responses).1.isFulfilled e = true from hful] at hnot
      cases hnot
  · intro e he
    rw [t.isFulfilled_act]
    rcases List.mem_append.mp he with hnew | hold
    · cases t with
      | store e' v =>
        simp only [Todo.misses] at hnew
        split at hnew
        · rw [List.mem_singleton.mp hnew]
          exact .inr ⟨v, rfl, hw.known _ ht⟩
        · cases hnew
      | _ => cases hnew
    · exact .inl (hw.missed e hold)

theorem Sound.step {w w' : Threads α} (hw : Sound home w) (h : Step home w w') : Sound home w' := by
  have hcons : ∀ {t : Todo α} {r : Responses α}, t.Known home r → t.overlooked = none →
      ∀ u ∈ t :: w.tasks, u ∈ w.tasks ∨ (u.Known home r ∧ u.overlooked = none) := by
    intro t r hknown hnone u hu
    rcases List.mem_cons.mp hu with rfl | hu
    · exact .inr ⟨hknown, hnone⟩
    · exact .inl hu
  cases h with
  | create hooked =>
    refine hw.of_same ?_ ?_ ?_ (fun _ => .inl) rfl
    · show _ ≤ (w.responses.events ++ [_]).length
      rw [List.length_append]
      exact Nat.le_add_right _ _
    · exact w.responses.wokenBy_addEvent hooked
    · exact w.responses.isFulfilled_addEvent hooked
  | add h => exact hw.of_same (Nat.le_refl _) (fun _ => rfl) (fun _ => rfl) (hcons ⟨rfl, h⟩ rfl) rfl
  | respond v h => exact hw.of_same (Nat.le_refl _) (fun _ => rfl) (fun _ => rfl) (hcons h rfl) rfl
  | stop handler =>
    exact hw.of_same (Nat.le_refl _) (fun _ => rfl) (fun _ => rfl) (hcons trivial rfl) rfl
  | act h => exact hw.act h
  | @process handler event h =>
    refine hw.of_same ?_ ?_ ?_ (fun _ => .inl) rfl
    · exact Nat.le_of_eq (w.responses.length_events_process event).symm
    · exact w.responses.wokenBy_process event
    · exact w.responses.isFulfilled_process event
  | _ => exact hw.of_same (Nat.le_refl _) (fun _ => rfl) (fun _ => rfl) (fun _ => .inl) rfl

end Threads

end Parley
