import Parley.Proofs.Requests.Callers
import Parley.Proofs.Requests.OwnAnswers

/-!
# When a failing call undoes only itself

A call that could not send its request ends whatever waits under the id that it took. Its own
request may have ended before, and its id may be taken by another call by then.

- `Callers.Kept.step`, `Callers.Kept.undo`: as long as no call takes an id that another one still
  holds, what waits under an id is the request of the call that holds it.
- `Callers.Kept.waits_or_failed`: a request waits until something ends it that may, or its own call
  fails.
- `Callers.undone_of_reuse`: once a call takes an id that another one holds, the other one may end
  its request by mere failing.
- `Callers.undoes_own_iff`: all of these.
-/

namespace Parley

namespace Callers

variable {σ γ υ : Type} {s : Services σ γ υ}

/-- No call takes an id that a call still holds. -/
def Careful (w : Callers σ γ υ) (move : Move) : Prop :=
  ∀ c id, move = .reserve c id → ∀ c', ¬ w.Holds c' id

/-- No call takes an id. -/
def Quiet (_ : Callers σ γ υ) (move : Move) : Prop :=
  ∀ c id, move ≠ .reserve c id

/-! ## Careful runs -/

/-- What waits under an id that a call holds is the request of that call. -/
structure Kept (w : Callers σ γ υ) : Prop where
  booked : w.node.requests.Booked
  own : ∀ c id, w.Holds c id → ∀ e ∈ w.node.requests.entries, e.id = id → w.owner e.id = c

theorem kept_start (net : Network) : Kept (start net : Callers σ γ υ) := by
  refine ⟨Requests.booked_empty, ?_⟩
  rintro c id ⟨x, hx, -⟩
  cases hx

theorem Kept.step {w w' : Callers σ γ υ} {move : Move} (hw : w.Kept) (hcareful : Careful w move)
    (h : Step s w move w') : w'.Kept := by
  refine ⟨booked_of_step h hw.booked, ?_⟩
  rintro c id hholds e he rfl
  rcases mem_of_step h he with ⟨hold, howner, hmove⟩ | ⟨c', rfl, howner⟩
  · rcases holds_of_step h hholds with hbefore | hreserve
    · rw [howner]
      exact hw.own c e.id hbefore e hold rfl
    · exact absurd hreserve (hmove c)
  · rcases holds_of_step h hholds with hbefore | hreserve
    · exact absurd hbefore (hcareful c' e.id rfl c)
    · cases hreserve
      exact howner

theorem Kept.run {w v : Callers σ γ υ} (hw : w.Kept) (run : Run s Careful w v) : v.Kept := by
  induction run with
  | refl => exact hw
  | tail run h ih =>
    obtain ⟨move, hcareful, hstep⟩ := h
    exact ih.step hcareful hstep

/-- A call that takes its request back ends its own or none. -/
theorem Kept.undo {w w' : Callers σ γ υ} (hw : w.Kept) {c : Nat} (h : Step s w (.undo c) w')
    {e : Pending} (he : e ∈ w.node.requests.entries) (hgone : e ∉ w'.node.requests.entries) :
    w.owner e.id = c := by
  rw [mem_of_undo_iff h he, not_not] at hgone
  exact hw.own c e.id hgone e he rfl

/-! ## A request that was sent -/

/-- A call has returned with an error. -/
def Failed (w : Callers σ γ υ) (c : Nat) : Prop :=
  ∃ x e, w.calls[c]? = some x ∧ x.stage = .returned (.error e)

/-- What ends a request, beside what may end any, is its own call that fails. -/
theorem Kept.waits_or_failed_of_step {w w' : Callers σ γ υ} (hw : w.Kept) {move : Move}
    (h : Step s w move w') {e : Pending} (he : e ∈ w.node.requests.entries)
    (hends : ¬ Ends e w move) :
    (e ∈ w'.node.requests.entries ∧ w'.owner e.id = w.owner e.id) ∨
      w'.Failed (w.owner e.id) := by
  by_cases hundo : ∃ c, move = .undo c ∧ w.Holds c e.id
  · obtain ⟨c, rfl, hholds⟩ := hundo
    rw [hw.own c e.id hholds e he rfl]
    cases h with
    | @undo _ x id error hx hstage =>
      refine .inr ⟨{ x with stage := .returned (.error error) }, error, ?_, rfl⟩
      rw [getElem?_moved rfl, hx, Option.map_some, if_pos rfl]
  · exact .inl (stays_of_step h hw.booked he hends fun c hmove hholds => hundo ⟨c, hmove, hholds⟩)

theorem Kept.waits_or_failed {w v : Callers σ γ υ} (hw : w.Kept) {e : Pending}
    (he : e ∈ w.node.requests.entries)
    (run : Run s (fun u move => Careful u move ∧ ¬ Ends e u move) w v) :
    e ∈ v.node.requests.entries ∨ v.Failed (w.owner e.id) := by
  have hall : v.Kept ∧ ((e ∈ v.node.requests.entries ∧ v.owner e.id = w.owner e.id) ∨
      v.Failed (w.owner e.id)) := by
    induction run with
    | refl => exact ⟨hw, .inl ⟨he, rfl⟩⟩
    | tail run h ih =>
      obtain ⟨move, ⟨hcareful, hends⟩, hstep⟩ := h
      obtain ⟨hkept, hbefore⟩ := ih
      refine ⟨hkept.step hcareful hstep, ?_⟩
      rcases hbefore with ⟨hwaits, howner⟩ | ⟨x, error, hx, hfailed⟩
      · rw [← howner]
        exact hkept.waits_or_failed_of_step hstep hwaits hends
      · exact .inr ⟨x, error, returned_of_step hstep hx hfailed, hfailed⟩
  exact hall.2.imp_left And.left

/-! ## An id that is taken while a call holds it -/

theorem exists_dispatch_error (net : Network) (peer : Address) (m : Message) (id : ResponseId) :
    ∃ e, Requests.dispatch (net.disconnect peer) peer m id = .error e := by
  unfold Requests.dispatch
  cases m.withResponseId id with
  | error e => exact ⟨e, rfl⟩
  | ok question =>
    have hgone : (net.disconnect peer).isConnected peer = false := by
      rw [← Bool.not_eq_true]
      intro hconnected
      exact ((ConnectionTable.contains_erase_iff _ _ _).mp hconnected).2 rfl
    unfold Network.send
    by_cases hrunning : (net.disconnect peer).running = true
    · exact ⟨.notConnected peer, by simp [hrunning, hgone]⟩
    · exact ⟨.networkShutdown, by simp [hrunning]⟩

/-- A call that holds an id comes to take its request back, if its peer is gone. -/
theorem exists_failing {w : Callers σ γ υ} {c : Nat} {id : ResponseId} (h : w.Holds c id) :
    ∃ v x e, Run s Quiet w v ∧ v.calls[c]? = some x ∧ x.stage = .failing id e ∧
      v.node.requests = w.node.requests ∧ v.owner = w.owner := by
  obtain ⟨x, hx, hid⟩ := h
  cases hstage : x.stage with
  | holding id' =>
    rw [hstage] at hid
    cases hid
    obtain ⟨error, herror⟩ := exists_dispatch_error w.node.site.net x.peer x.message id
    have hcut : Run s Quiet w { w with node := { w.node with
        site := { w.node.site with net := w.node.site.net.disconnect x.peer } } } :=
      .single ⟨.other, nofun, .environment _⟩
    refine ⟨_, { x with stage := .failing id error }, error,
      hcut.tail ⟨.other, nofun, .fail hx hstage herror⟩, ?_, rfl, rfl, rfl⟩
    rw [getElem?_moved rfl, hx, Option.map_some, if_pos rfl]
  | failing id' error =>
    rw [hstage] at hid
    cases hid
    exact ⟨w, x, error, .refl, hx, hstage, rfl, rfl⟩
  | entered =>
    rw [hstage] at hid
    cases hid
  | forgot =>
    rw [hstage] at hid
    cases hid
  | returned result =>
    rw [hstage] at hid
    cases hid

/-- Once a call takes an id that another one holds, the other one ends its request if it fails. -/
theorem undone_of_reuse {w w' : Callers σ γ υ} {c c' : Nat} {id : ResponseId}
    (h : Step s w (.reserve c id) w') (hholds : w.Holds c' id) :
    ∃ v v', Run s Quiet w' v ∧ Step s v (.undo c') v' ∧ c' ≠ c ∧
      ∃ e ∈ v.node.requests.entries, e.id = id ∧ v.owner id = c ∧
        e ∉ v'.node.requests.entries := by
  cases h with
  | @reserve _ x _ r hx hstage hreserve =>
    obtain ⟨y, hy, hid⟩ := hholds
    have hother : x.stage ≠ y.stage := by
      intro hsame
      rw [← hsame, hstage] at hid
      cases hid
    have hne : c' ≠ c := by
      rintro rfl
      cases hx.symm.trans hy
      exact hother rfl
    generalize hw' : ({ w.go c (.holding id) r w.node.site with
      owner := Function.update w.owner id c } : Callers σ γ υ) = w'
    have hstill : w'.Holds c' id := by
      rw [← hw']
      exact ⟨y, getElem?_of_moved rfl hx hy hother, hid⟩
    obtain ⟨v, z, error, run, hz, hfailing, hrequests, howner⟩ := exists_failing (s := s) hstill
    have hundo : Step s v (.undo c') _ := .undo hz hfailing
    have hwaits : ⟨id, x.peer, x.ticket⟩ ∈ v.node.requests.entries := by
      rw [hrequests, ← hw']
      exact (Requests.mem_reserve_iff hreserve).mpr (.inr rfl)
    refine ⟨v, _, run, hundo, hne, ⟨id, x.peer, x.ticket⟩, hwaits, rfl, ?_, ?_⟩
    · rw [howner, ← hw']
      exact Function.update_self _ _ _
    · rw [mem_of_undo_iff hundo hwaits, not_not]
      exact ⟨z, hz, by rw [hfailing]; rfl⟩

/-- While no id is taken, a call holds no other than before. -/
theorem holds_of_quiet {w v : Callers σ γ υ} (run : Run s Quiet w v) {c : Nat} {id : ResponseId}
    (hholds : v.Holds c id) : w.Holds c id := by
  induction run with
  | refl => exact hholds
  | tail run h ih =>
    obtain ⟨move, hquiet, hstep⟩ := h
    rcases holds_of_step hstep hholds with hbefore | hreserve
    · exact ih hbefore
    · exact absurd hreserve (hquiet c id)

/-! ## Two calls under one id -/

open Exchange (friend befriended query quiet)

/-- Whom the second request goes to. -/
def neighbour : Address :=
  .ipv4 10 0 0 2 1

/-- The first connection is gone, and there is another. -/
def rewired : Network :=
  (befriended.disconnect friend).connect neighbour

/-- The first call has put its request under an id. -/
def prepared : Callers Unit Unit Unit where
  node := { (Node.new befriended : Node Unit Unit Unit) with
    requests := ⟨[1], [⟨1, friend, 0⟩]⟩ }
  calls := [⟨friend, .user (query "first" 1), 0, .holding 1⟩]
  owner := Function.update (fun _ => 0) 1 0

/-- The peer of the first call is gone. The second call has ended the first one's request, and is to
take an id. -/
def stranded : Callers Unit Unit Unit where
  node := .new rewired
  calls := [⟨friend, .user (query "first" 1), 0, .holding 1⟩,
    ⟨neighbour, .user (query "second" 2), 1, .forgot⟩]
  owner := Function.update (fun _ => 0) 1 0

theorem run_prepared : Run quiet Careful (start befriended) prepared := by
  have hentered : Run quiet Careful (start befriended) _ :=
    .single ⟨.other, nofun, .enter friend (.user (query "first" 1)) 0⟩
  have hforgot := hentered
    |>.tail ⟨.forget, nofun, @Step.forget _ _ _ _ _ 0 _ rfl rfl⟩
  refine hforgot.tail ⟨.reserve 0 1, ?_, @Step.reserve _ _ _ _ _ 0 _ 1 _ rfl rfl rfl⟩
  rintro c id ⟨⟩ c' ⟨x, hx, hid⟩
  rw [List.mem_singleton.mp (List.mem_of_getElem? hx)] at hid
  cases hid

theorem run_stranded : Run quiet Careful (start befriended) stranded :=
  run_prepared
    |>.tail ⟨.other, nofun, .environment (.new rewired)⟩
    |>.tail ⟨.other, nofun, .enter neighbour (.user (query "second" 2)) 1⟩
    |>.tail ⟨.forget, nofun, @Step.forget _ _ _ _ _ 1 _ rfl rfl⟩

/-- The second call takes the id of the first. -/
theorem step_stranded : Step quiet stranded (.reserve 1 1)
    { stranded.go 1 (.holding 1) ⟨[1], [⟨1, neighbour, 1⟩]⟩ stranded.node.site with
      owner := Function.update stranded.owner 1 1 } :=
  @Step.reserve _ _ _ _ stranded 1 _ 1 _ rfl rfl rfl

/-- The first call sends its request. -/
theorem exists_sent : ∃ v : Callers Unit Unit Unit,
    Run quiet (fun u move => Careful u move ∧ ¬ Ends ⟨1, friend, 0⟩ u move) prepared v ∧
      ∃ x, v.calls[0]? = some x ∧ x.stage = .returned (.ok ()) :=
  ⟨_, .single ⟨.other, ⟨nofun, nofun⟩, @Step.dispatch _ _ _ _ _ 0 _ 1 _ rfl rfl rfl⟩, _, rfl, rfl⟩

/-! ## All of these -/

/-- While no call takes an id that another one holds, a call that fails ends its own request or none,
and a request that waits, and whose call returns without an error, waits on until it is answered, its
event is given up, or its peer is gone. A call that takes an id next may have its request ended by
another one that fails, without any other id being taken, exactly if the other one holds that id. -/
theorem undoes_own_iff {net : Network} {w : Callers σ γ υ} (run : Run s Careful (start net) w) :
    (∀ {c : Nat} {w' : Callers σ γ υ}, Step s w (.undo c) w' →
      ∀ e ∈ w.node.requests.entries, e ∉ w'.node.requests.entries → w.owner e.id = c) ∧
    (∀ {e : Pending} {v : Callers σ γ υ} {x : Call}, e ∈ w.node.requests.entries →
      Run s (fun u move => Careful u move ∧ ¬ Ends e u move) w v →
        v.calls[w.owner e.id]? = some x → x.stage = .returned (.ok ()) →
          e ∈ v.node.requests.entries) ∧
    ∀ {c c' : Nat} {id : ResponseId} {w' : Callers σ γ υ}, Step s w (.reserve c id) w' →
      (w.Holds c' id ↔ ∃ v v', Run s Quiet w' v ∧ Step s v (.undo c') v' ∧ c' ≠ c ∧
        ∃ e ∈ v.node.requests.entries, e.id = id ∧ v.owner id = c ∧
          e ∉ v'.node.requests.entries) := by
  have hw := (kept_start net).run run
  refine ⟨fun h e he hgone => hw.undo h he hgone, ?_, ?_⟩
  · intro e v x he more hx hreturned
    rcases hw.waits_or_failed he more with hwaits | ⟨y, error, hy, hfailed⟩
    · exact hwaits
    · cases hx.symm.trans hy
      rw [hreturned] at hfailed
      cases hfailed
  · intro c c' id w' h
    refine ⟨undone_of_reuse h, ?_⟩
    rintro ⟨v, v', more, hundo, hne, e, he, rfl, -, hgone⟩
    rw [mem_of_undo_iff hundo he, not_not] at hgone
    rcases holds_of_step h (holds_of_quiet more hgone) with hbefore | hreserve
    · exact hbefore
    · cases hreserve
      exact absurd rfl hne

/-- A request that was sent waits. A call that takes the id of another one may lose its request to
it. -/
theorem sent_request_waits :
    (∃ v : Callers Unit Unit Unit,
      Run quiet (fun u move => Careful u move ∧ ¬ Ends ⟨1, friend, 0⟩ u move) prepared v ∧
        ⟨1, friend, 0⟩ ∈ v.node.requests.entries) ∧
    ∃ w : Callers Unit Unit Unit, Run quiet Careful (start befriended) w ∧ w.Holds 0 1 ∧
      ∃ w', Step quiet w (.reserve 1 1) w' ∧ ∃ v v', Run quiet Quiet w' v ∧
        Step quiet v (.undo 0) v' ∧ ∃ e ∈ v.node.requests.entries, e.id = 1 ∧ v.owner 1 = 1 ∧
          e ∉ v'.node.requests.entries := by
  obtain ⟨u, sent, x, hx, hreturned⟩ := exists_sent
  have hwaits : ⟨1, friend, 0⟩ ∈ u.node.requests.entries :=
    (undoes_own_iff run_prepared).2.1 List.mem_cons_self sent hx hreturned
  have hholds : stranded.Holds 0 1 := ⟨_, rfl, rfl⟩
  obtain ⟨v, v', more, hundo, -, hother⟩ :=
    ((undoes_own_iff run_stranded).2.2 step_stranded).mp hholds
  exact ⟨⟨u, sent, hwaits⟩, stranded, run_stranded, hholds, _, step_stranded, v, v', more, hundo,
    hother⟩

/-- A call that fails ends the request of another one, which was sent and whose peer is connected. -/
theorem ends_request_of_another : ∃ v v' : Callers Unit Unit Unit,
    Run quiet (fun _ _ => True) (start befriended) v ∧ Step quiet v (.undo 0) v' ∧
      v.node.requests.entries = [⟨1, neighbour, 1⟩] ∧ v.owner 1 = 1 ∧
      (∃ x, v.calls[1]? = some x ∧ x.stage = .returned (.ok ())) ∧
      v.node.site.net.isConnected neighbour = true ∧ v'.node.requests.entries = [] := by
  have hfailed := (run_stranded.mono fun _ _ _ => trivial).tail
    (⟨_, trivial, step_stranded⟩ : Steps quiet (fun _ _ => True) _ _)
    |>.tail ⟨.other, trivial, @Step.dispatch _ _ _ _ _ 1 _ 1 _ rfl rfl rfl⟩
    |>.tail ⟨.other, trivial, @Step.fail _ _ _ _ _ 0 _ 1 _ rfl rfl rfl⟩
  exact ⟨_, _, hfailed, @Step.undo _ _ _ _ _ 0 _ 1 _ rfl rfl, rfl, rfl, ⟨_, rfl, rfl⟩, rfl, rfl⟩

end Callers

end Parley
