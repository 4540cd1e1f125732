import Mathlib.Logic.Function.Basic
import Mathlib.Logic.Relation
import Parley.Proofs.Requests.Exchange

/-!
# Requests sent by several callers

Several callers send requests through one node. Each goes through the steps of `Requests.send`, and
between its steps the others take theirs, answers come in, requests are given up, and connections
come and go.

- `Requests.Booked`, `Requests.mem_forget_iff`: the waiting requests have ids of their own, and
  forgetting ends those whose peer is not connected and no others.
- `Callers.Step`: one step of a caller, or one thing that happens around them.
- `Callers.exists_run_request`, `Callers.step_cancel`: a caller that nobody comes between does what
  `Node.request` does, and giving a request up is what `Node.cancel` does.
- `Callers.calls_of_step`, `Callers.effect_of_step`: what a step does to the calls and to the waiting
  requests. From these, `Callers.holds_of_step` and `Callers.mem_of_step`: where held ids and waiting
  requests come from; `Callers.stays_of_step`: what a step leaves waiting.
-/

namespace Parley

/-! ## Ids and their requests -/

namespace Requests

/-- Every request that waits has taken its id, and no other one waits under it. -/
structure Booked (r : Requests) : Prop where
  taken : ∀ e ∈ r.entries, e.id ∈ r.taken
  unique : ∀ e ∈ r.entries, ∀ e' ∈ r.entries, e.id = e'.id → e = e'

theorem booked_empty : Booked empty := ⟨nofun, nofun⟩

theorem mem_drop_iff {r : Requests} {site : Site} {id : ResponseId} {e : Pending} :
    e ∈ (drop (r, site) id).1.entries ↔ e ∈ r.entries ∧ e.id ≠ id := by
  rw [entries_drop, List.mem_filter, bne_iff_ne]

/-- No id but the one that is given back is free afterwards. -/
theorem mem_taken_drop {r : Requests} {site : Site} {id other : ResponseId} (h : other ∈ r.taken)
    (hne : other ≠ id) : other ∈ (drop (r, site) id).1.taken := by
  unfold drop remove
  cases r.get? id with
  | none => exact h
  | some p =>
    dsimp only
    by_cases htaken : r.taken.contains id = true
    · simp only [htaken, if_true]
      exact (List.mem_erase_of_ne hne).mpr h
    · simp only [htaken]
      exact (List.mem_erase_of_ne hne).mpr h

theorem Booked.drop {r : Requests} (h : r.Booked) (site : Site) (id : ResponseId) :
    (drop (r, site) id).1.Booked := by
  refine ⟨?_, ?_⟩
  · intro e he
    obtain ⟨hmem, hne⟩ := mem_drop_iff.mp he
    exact mem_taken_drop (h.taken e hmem) hne
  · intro e he e' he'
    exact h.unique e (mem_drop_iff.mp he).1 e' (mem_drop_iff.mp he').1

theorem Booked.foldl_drop {ids : List ResponseId} {r : Requests} (h : r.Booked) (site : Site) :
    (ids.foldl Requests.drop (r, site)).1.Booked := by
  induction ids generalizing r site with
  | nil => exact h
  | cons id ids ih => exact ih (h.drop site id) _

theorem Booked.forget {r : Requests} (h : r.Booked) (site : Site) : (r.forget site).1.Booked :=
  h.foldl_drop site

theorem mem_foldl_drop_iff {ids : List ResponseId} {r : Requests} {site : Site} {e : Pending} :
    e ∈ (ids.foldl drop (r, site)).1.entries ↔ e ∈ r.entries ∧ e.id ∉ ids := by
  induction ids generalizing r site with
  | nil => simp
  | cons id ids ih =>
    rw [List.foldl_cons, ih, mem_drop_iff, List.mem_cons, not_or, and_assoc]

/-- Forgetting ends the requests to peers that are not connected, and no others. -/
theorem mem_forget_iff {r : Requests} (h : r.Booked) {site : Site} {e : Pending} :
    e ∈ (r.forget site).1.entries ↔ e ∈ r.entries ∧ site.net.isConnected e.peer = true := by
  unfold forget
  rw [mem_foldl_drop_iff]
  refine and_congr_right fun he => ?_
  unfold lost
  simp only [List.mem_map, List.mem_filter, Bool.not_eq_true', not_exists, not_and, and_imp]
  constructor
  · intro hall
    cases hconnected : site.net.isConnected e.peer with
    | true => rfl
    | false => exact absurd rfl (hall e he hconnected)
  · intro hconnected e' he' hlost hid
    rw [h.unique e' he' e he hid, hconnected] at hlost
    cases hlost

theorem reserve_eq {r r' : Requests} {peer : Address} {ticket : Ticket} {id : ResponseId}
    (h : r.reserve peer ticket = some (id, r')) :
    id ∉ r.taken ∧
      r' = ⟨id :: r.taken, r.entries.filter (·.id != id) ++ [⟨id, peer, ticket⟩]⟩ := by
  unfold reserve at h
  obtain ⟨id', hfree, heq⟩ := Option.map_eq_some_iff.mp h
  cases heq
  exact ⟨freeId?_not_mem hfree, rfl⟩

/-- A request that takes an id waits besides those that waited. -/
theorem mem_reserve_iff {r r' : Requests} {peer : Address} {ticket : Ticket}
    {id : ResponseId} (h : r.reserve peer ticket = some (id, r')) {e : Pending} :
    e ∈ r'.entries ↔ (e ∈ r.entries ∧ e.id ≠ id) ∨ e = ⟨id, peer, ticket⟩ := by
  obtain ⟨-, rfl⟩ := reserve_eq h
  simp

theorem Booked.reserve {r r' : Requests} (hr : r.Booked) {peer : Address} {ticket : Ticket}
    {id : ResponseId} (h : r.reserve peer ticket = some (id, r')) : r'.Booked := by
  refine ⟨?_, ?_⟩
  · intro e he
    have htaken : r'.taken = id :: r.taken := by rw [(reserve_eq h).2]
    rw [htaken]
    rcases (mem_reserve_iff h).mp he with ⟨hold, -⟩ | rfl
    · exact List.mem_cons_of_mem _ (hr.taken e hold)
    · exact List.mem_cons_self
  · intro e he e' he' hid
    rcases (mem_reserve_iff h).mp he with ⟨hold, hne⟩ | rfl
    · rcases (mem_reserve_iff h).mp he' with ⟨hold', -⟩ | rfl
      · exact hr.unique e hold e' hold' hid
      · exact absurd hid hne
    · rcases (mem_reserve_iff h).mp he' with ⟨-, hne'⟩ | rfl
      · exact absurd hid.symm hne'
      · rfl

/-- An answer ends the request of its id as any other end does. -/
theorem answer_fst (r : Requests) (site : Site) (id : ResponseId) :
    (r.answer site id).1 = (drop (r, site) id).1 := by
  unfold answer drop remove
  cases r.get? id with
  | none => rfl
  | some p => rfl

end Requests

/-- A message that comes in leaves the requests alone, or ends the one that it answers. -/
theorem Node.requests_handle {σ γ υ : Type} (s : Services σ γ υ) (n : Node σ γ υ) (sender : Address)
    (m : Message) : (n.handle s sender m).1.requests = n.requests ∨
      ∃ id, m.isAnswer = true ∧ m.responseId? = some id ∧
        (n.handle s sender m).1.requests = (Requests.drop (n.requests, n.site) id).1 := by
  cases hanswer : m.isAnswer with
  | false => exact .inl (n.handle_of_not_isAnswer s sender hanswer).1
  | true =>
    rcases n.handle_cases s sender m with ⟨hsame, -⟩ | ⟨id, hid, heq⟩
    · exact .inl hsame
    · refine .inr ⟨id, rfl, hid, ?_⟩
      rw [heq]
      exact n.requests.answer_fst n.site id

/-! ## Callers -/

/-- Where a caller is. -/
inductive Stage
  | entered
  /-- It has ended the requests whose answer cannot come any more. -/
  | forgot
  /-- Its request waits under an id, and is to be sent. -/
  | holding (id : ResponseId)
  /-- Its request could not be sent, and is to be taken back. -/
  | failing (id : ResponseId) (e : Error)
  | returned (result : Except Error Unit)

/-- The id that a caller has yet to send, or to take back. -/
def Stage.id? : Stage → Option ResponseId
  | holding id | failing id _ => some id
  | _ => none

/-- A request that a caller is sending. -/
structure Call where
  peer : Address
  message : Message
  ticket : Ticket
  stage : Stage

/-- A node and the calls made to it, each known by its number. -/
structure Callers (σ γ υ : Type) where
  node : Node σ γ υ
  calls : List Call
  /-- The call that took an id last. Nobody reads this. -/
  owner : ResponseId → Nat

namespace Callers

variable {σ γ υ : Type}

def start (net : Network) : Callers σ γ υ :=
  ⟨.new net, [], fun _ => 0⟩

/-- A caller has taken a step. -/
def go (w : Callers σ γ υ) (c : Nat) (stage : Stage) (requests : Requests) (site : Site) :
    Callers σ γ υ :=
  { w with
    node := { w.node with requests := requests, site := site }
    calls := w.calls.modify c fun x => { x with stage := stage } }

/-- What a step is, as far as it matters to a request that waits. -/
inductive Move
  | forget
  /-- A call takes an id. -/
  | reserve (call : Nat) (id : ResponseId)
  /-- A call takes its request back. -/
  | undo (call : Nat)
  | cancel (ticket : Ticket)
  | receive (m : Message)
  | other

/-- One step of a caller, or one thing that happens around them. -/
inductive Step (s : Services σ γ υ) : Callers σ γ υ → Move → Callers σ γ υ → Prop
  | enter {w : Callers σ γ υ} (peer : Address) (m : Message) (ticket : Ticket) :
      Step s w .other { w with calls := w.calls ++ [⟨peer, m, ticket, .entered⟩] }
  | forget {w : Callers σ γ υ} {c : Nat} {x : Call} (hx : w.calls[c]? = some x)
      (hstage : x.stage = .entered) :
      Step s w .forget (w.go c .forgot (w.node.requests.forget w.node.site).1
        (w.node.requests.forget w.node.site).2)
  | reserve {w : Callers σ γ υ} {c : Nat} {x : Call} {id : ResponseId} {r : Requests}
      (hx : w.calls[c]? = some x) (hstage : x.stage = .forgot)
      (h : w.node.requests.reserve x.peer x.ticket = some (id, r)) :
      Step s w (.reserve c id)
        { w.go c (.holding id) r w.node.site with owner := Function.update w.owner id c }
  | exhausted {w : Callers σ γ υ} {c : Nat} {x : Call} (hx : w.calls[c]? = some x)
      (hstage : x.stage = .forgot) (h : w.node.requests.reserve x.peer x.ticket = none) :
      Step s w .other (w.go c (.returned (.error .responseIdsExhausted)) w.node.requests w.node.site)
  | dispatch {w : Callers σ γ υ} {c : Nat} {x : Call} {id : ResponseId} {net : Network}
      (hx : w.calls[c]? = some x) (hstage : x.stage = .holding id)
      (h : Requests.dispatch w.node.site.net x.peer x.message id = .ok net) :
      Step s w .other (w.go c (.returned (.ok ())) w.node.requests { w.node.site with net := net })
  | fail {w : Callers σ γ υ} {c : Nat} {x : Call} {id : ResponseId} {e : Error}
      (hx : w.calls[c]? = some x) (hstage : x.stage = .holding id)
      (h : Requests.dispatch w.node.site.net x.peer x.message id = .error e) :
      Step s w .other (w.go c (.failing id e) w.node.requests w.node.site)
  | undo {w : Callers σ γ υ} {c : Nat} {x : Call} {id : ResponseId} {e : Error}
      (hx : w.calls[c]? = some x) (hstage : x.stage = .failing id e) :
      Step s w (.undo c) (w.go c (.returned (.error e))
        (Requests.drop (w.node.requests, w.node.site) id).1
        (Requests.drop (w.node.requests, w.node.site) id).2)
  /-- Somebody gives a request up. -/
  | cancel {w : Callers σ γ υ} {e : Pending} (he : e ∈ w.node.requests.entries) :
      Step s w (.cancel e.ticket) { w with node := { w.node with
        requests := (Requests.drop (w.node.requests, w.node.site) e.id).1
        site := (Requests.drop (w.node.requests, w.node.site) e.id).2 } }
  /-- A message comes in, from whomever. -/
  | receive {w : Callers σ γ υ} (sender : Address) (m : Message) :
      Step s w (.receive m) { w with node := (w.node.handle s sender m).1 }
  /-- Connections come and go, and other messages are sent. -/
  | environment {w : Callers σ γ υ} (site : Site) :
      Step s w .other { w with node := { w.node with site := site } }

/-- A step that is allowed. -/
def Steps (s : Services σ γ υ) (allowed : Callers σ γ υ → Move → Prop) (w v : Callers σ γ υ) : Prop :=
  ∃ move, allowed w move ∧ Step s w move v

/-- A run all of whose steps are allowed. -/
abbrev Run (s : Services σ γ υ) (allowed : Callers σ γ υ → Move → Prop) :
    Callers σ γ υ → Callers σ γ υ → Prop :=
  Relation.ReflTransGen (Steps s allowed)

theorem Run.mono {s : Services σ γ υ} {allowed allowed' : Callers σ γ υ → Move → Prop}
    {w v : Callers σ γ υ} (run : Run s allowed w v) (h : ∀ w move, allowed w move → allowed' w move) :
    Run s allowed' w v :=
  Relation.ReflTransGen.mono (fun w _ ⟨move, hallowed, hstep⟩ => ⟨move, h w move hallowed, hstep⟩)
    _ _ run

/-! ## What a step does -/

theorem getElem?_moved {w w' : Callers σ γ υ} {c : Nat} {stage : Stage}
    (h : w'.calls = w.calls.modify c fun x => { x with stage := stage }) (c' : Nat) :
    w'.calls[c']? = w.calls[c']?.map fun x => if c = c' then { x with stage := stage } else x := by
  rw [h, List.getElem?_modify]
  rfl

/-- A caller has taken a step, and another call is where it was. -/
theorem getElem?_of_moved {w w' : Callers σ γ υ} {c c' : Nat} {stage : Stage} {x x' : Call}
    (h : w'.calls = w.calls.modify c fun x => { x with stage := stage })
    (hx : w.calls[c]? = some x) (hx' : w.calls[c']? = some x') (hne : x.stage ≠ x'.stage) :
    w'.calls[c']? = some x' := by
  rw [getElem?_moved h, hx', Option.map_some]
  split
  · rename_i hc
    subst hc
    rw [hx] at hx'
    cases hx'
    exact absurd rfl hne
  · rfl

/-- A call is to send, or to take back, a request under an id. -/
def Holds (w : Callers σ γ υ) (c : Nat) (id : ResponseId) : Prop :=
  ∃ x, w.calls[c]? = some x ∧ x.stage.id? = some id

/-- The calls stay as they are, or one begins, or one that has not returned takes a step. No other step
than taking an id gives a call an id. -/
theorem calls_of_step {s : Services σ γ υ} {w w' : Callers σ γ υ} {move : Move}
    (h : Step s w move w') :
    w'.calls = w.calls ∨ (∃ x, w'.calls = w.calls ++ [x] ∧ x.stage = .entered) ∨
      ∃ c x stage, w.calls[c]? = some x ∧ (∀ result, x.stage ≠ .returned result) ∧
        (w'.calls = w.calls.modify c fun x => { x with stage := stage }) ∧
        ∀ id, stage.id? = some id → x.stage.id? = some id ∨ move = .reserve c id := by
  cases h with
  | enter peer m ticket => exact .inr (.inl ⟨_, rfl, rfl⟩)
  | forget hx hstage =>
    exact .inr (.inr ⟨_, _, .forgot, hx, by rw [hstage]; exact nofun, rfl, nofun⟩)
  | @reserve c x id r hx hstage h =>
    refine .inr (.inr ⟨c, x, .holding id, hx, by rw [hstage]; exact nofun, rfl, ?_⟩)
    rintro _ ⟨⟩
    exact .inr rfl
  | exhausted hx hstage h =>
    exact .inr (.inr ⟨_, _, .returned _, hx, by rw [hstage]; exact nofun, rfl, nofun⟩)
  | dispatch hx hstage h =>
    exact .inr (.inr ⟨_, _, .returned _, hx, by rw [hstage]; exact nofun, rfl, nofun⟩)
  | @fail c x id e hx hstage h =>
    refine .inr (.inr ⟨c, x, .failing id e, hx, by rw [hstage]; exact nofun, rfl, ?_⟩)
    rintro _ ⟨⟩
    rw [hstage]
    exact .inl rfl
  | undo hx hstage =>
    exact .inr (.inr ⟨_, _, .returned _, hx, by rw [hstage]; exact nofun, rfl, nofun⟩)
  | cancel he => exact .inl rfl
  | receive sender m => exact .inl rfl
  | environment site => exact .inl rfl

/-- A call holds an id since it took it. -/
theorem holds_of_step {s : Services σ γ υ} {w w' : Callers σ γ υ} {move : Move}
    (h : Step s w move w') {c : Nat} {id : ResponseId} (hholds : w'.Holds c id) :
    w.Holds c id ∨ move = .reserve c id := by
  obtain ⟨x', hx', hid⟩ := hholds
  rcases calls_of_step h with hsame | ⟨y, hnew, hentered⟩ | ⟨c₁, y, stage, hy, -, hmoved, hgets⟩
  · rw [hsame] at hx'
    exact .inl ⟨x', hx', hid⟩
  · rw [hnew] at hx'
    rcases Nat.lt_or_ge c w.calls.length with hlt | hge
    · rw [List.getElem?_append_left hlt] at hx'
      exact .inl ⟨x', hx', hid⟩
    · rw [List.getElem?_append_right hge] at hx'
      rw [List.mem_singleton.mp (List.mem_of_getElem? hx'), hentered] at hid
      cases hid
  · rw [getElem?_moved hmoved] at hx'
    obtain ⟨x, hx, rfl⟩ := Option.map_eq_some_iff.mp hx'
    by_cases hc : c₁ = c
    · subst hc
      cases hy.symm.trans hx
      rw [if_pos rfl] at hid
      exact (hgets id hid).imp_left fun hbefore => ⟨y, hy, hbefore⟩
    · rw [if_neg hc] at hid
      exact .inl ⟨x, hx, hid⟩

/-- A call that has returned has no more steps. -/
theorem returned_of_step {s : Services σ γ υ} {w w' : Callers σ γ υ} {move : Move}
    (h : Step s w move w') {c : Nat} {x : Call} {result : Except Error Unit}
    (hx : w.calls[c]? = some x) (hreturned : x.stage = .returned result) :
    w'.calls[c]? = some x := by
  rcases calls_of_step h with hsame | ⟨y, hnew, -⟩ | ⟨c₁, y, stage, hy, hbusy, hmoved, -⟩
  · rw [hsame, hx]
  · rw [hnew, List.getElem?_append_left (List.getElem?_eq_some_iff.mp hx).1, hx]
  · refine getElem?_of_moved hmoved hy hx ?_
    rw [hreturned]
    exact hbusy result

/-- Why a step ends what waits under an id. -/
inductive Drops (w : Callers σ γ υ) : Move → ResponseId → Prop
  | undo {c : Nat} {id : ResponseId} (h : w.Holds c id) : Drops w (.undo c) id
  | cancel {e : Pending} (he : e ∈ w.node.requests.entries) : Drops w (.cancel e.ticket) e.id
  | receive {m : Message} {id : ResponseId} (hanswer : m.isAnswer = true)
      (hid : m.responseId? = some id) : Drops w (.receive m) id

/-- What a step makes of the waiting requests and their owners. -/
inductive Effect (w : Callers σ γ υ) : Move → Requests → (ResponseId → Nat) → Prop
  | same {move : Move} (h : ∀ c id, move ≠ .reserve c id) : Effect w move w.node.requests w.owner
  | forget : Effect w .forget (w.node.requests.forget w.node.site).1 w.owner
  | reserve {c : Nat} {id : ResponseId} {peer : Address} {ticket : Ticket} {r : Requests}
      (h : w.node.requests.reserve peer ticket = some (id, r)) :
      Effect w (.reserve c id) r (Function.update w.owner id c)
  | drop {move : Move} {id : ResponseId} (h : Drops w move id) :
      Effect w move (Requests.drop (w.node.requests, w.node.site) id).1 w.owner

theorem effect_of_step {s : Services σ γ υ} {w w' : Callers σ γ υ} {move : Move}
    (h : Step s w move w') : Effect w move w'.node.requests w'.owner := by
  cases h with
  | forget hx hstage => exact .forget
  | reserve hx hstage h => exact .reserve h
  | undo hx hstage => exact .drop (.undo ⟨_, hx, by rw [hstage]; rfl⟩)
  | cancel he => exact .drop (.cancel he)
  | receive sender m =>
    show Effect w _ (w.node.handle s sender m).1.requests w.owner
    rcases w.node.requests_handle s sender m with hsame | ⟨id, hanswer, hid, hdrop⟩
    · rw [hsame]
      exact .same nofun
    · rw [hdrop]
      exact .drop (.receive hanswer hid)
  | _ => exact .same nofun

theorem booked_of_step {s : Services σ γ υ} {w w' : Callers σ γ υ} {move : Move}
    (h : Step s w move w') (hw : w.node.requests.Booked) : w'.node.requests.Booked := by
  have heffect := effect_of_step h
  generalize w'.node.requests = r, w'.owner = owner at heffect ⊢
  cases heffect with
  | same h => exact hw
  | forget => exact hw.forget w.node.site
  | reserve h => exact hw.reserve h
  | drop h => exact hw.drop w.node.site _

/-- A request waits since before, under the id of the same call, or its call has just taken the id. -/
theorem mem_of_step {s : Services σ γ υ} {w w' : Callers σ γ υ} {move : Move} (h : Step s w move w')
    {e : Pending} (he : e ∈ w'.node.requests.entries) :
    (e ∈ w.node.requests.entries ∧ w'.owner e.id = w.owner e.id ∧
      ∀ c, move ≠ .reserve c e.id) ∨
    ∃ c, move = .reserve c e.id ∧ w'.owner e.id = c := by
  have heffect := effect_of_step h
  generalize w'.node.requests = r, w'.owner = owner at heffect he ⊢
  cases heffect with
  | same h => exact .inl ⟨he, rfl, fun c => h c e.id⟩
  | forget => exact .inl ⟨Requests.mem_of_mem_forget he, rfl, nofun⟩
  | @reserve c id peer ticket r h =>
    by_cases hid : e.id = id
    · subst hid
      exact .inr ⟨c, rfl, Function.update_self _ _ _⟩
    · refine .inl ⟨?_, Function.update_of_ne hid _ _, ?_⟩
      · rcases (Requests.mem_reserve_iff h).mp he with ⟨hold, -⟩ | rfl
        · exact hold
        · exact absurd rfl hid
      · rintro _ ⟨⟩
        exact hid rfl
  | drop h =>
    refine .inl ⟨(Requests.mem_drop_iff.mp he).1, rfl, ?_⟩
    rintro c rfl
    cases h

/-- What may end a request that has been sent: an answer to it, its own event given up, or that its
peer is not connected any more. -/
def Ends (e : Pending) (w : Callers σ γ υ) : Move → Prop
  | .receive m => m.isAnswer = true ∧ m.responseId? = some e.id
  | .cancel ticket => ticket = e.ticket
  | .forget => w.node.site.net.isConnected e.peer = false
  | _ => False

/-- What else a step ends is the request under the id that a caller takes back. -/
theorem stays_of_step {s : Services σ γ υ} {w w' : Callers σ γ υ} {move : Move}
    (h : Step s w move w') (hw : w.node.requests.Booked) {e : Pending}
    (he : e ∈ w.node.requests.entries) (hends : ¬ Ends e w move)
    (hundo : ∀ c, move = .undo c → ¬ w.Holds c e.id) :
    e ∈ w'.node.requests.entries ∧ w'.owner e.id = w.owner e.id := by
  have heffect := effect_of_step h
  generalize w'.node.requests = r, w'.owner = owner at heffect ⊢
  cases heffect with
  | same h => exact ⟨he, rfl⟩
  | forget =>
    have hconnected : w.node.site.net.isConnected e.peer = true := Bool.not_eq_false _ ▸ hends
    exact ⟨(Requests.mem_forget_iff hw).mpr ⟨he, hconnected⟩, rfl⟩
  | @reserve c id peer ticket r h =>
    -- the id was free, and that of the request was not
    have hne : e.id ≠ id := by
      rintro rfl
      exact (Requests.reserve_eq h).1 (hw.taken e he)
    exact ⟨(Requests.mem_reserve_iff h).mpr (.inl ⟨he, hne⟩), Function.update_of_ne hne _ _⟩
  | @drop _ id h =>
    have hne : e.id ≠ id := by
      cases h with
      | undo hholds =>
        rintro rfl
        exact hundo _ rfl hholds
      | cancel he' =>
        intro hid
        rw [hw.unique e he _ he' hid] at hends
        exact hends rfl
      | receive hanswer hid =>
        rintro rfl
        exact hends ⟨hanswer, hid⟩
    exact ⟨Requests.mem_drop_iff.mpr ⟨he, hne⟩, rfl⟩

/-- Taking a request back ends what waits under the id that the caller holds, and nothing else. -/
theorem mem_of_undo_iff {s : Services σ γ υ} {w w' : Callers σ γ υ} {c : Nat}
    (h : Step s w (.undo c) w') {e : Pending} (he : e ∈ w.node.requests.entries) :
    e ∈ w'.node.requests.entries ↔ ¬ w.Holds c e.id := by
  cases h with
  | @undo _ x id error hx hstage =>
    have hholds : w.Holds c e.id ↔ e.id = id := by
      constructor
      · rintro ⟨y, hy, hid⟩
        cases hx.symm.trans hy
        rw [hstage] at hid
        exact (Option.some.inj hid).symm
      · rintro rfl
        exact ⟨x, hx, by rw [hstage]; rfl⟩
    rw [hholds]
    exact Requests.mem_drop_iff.trans (and_iff_right he)

/-! ## Nobody comes between -/

theorem calls_go_last {w : Callers σ γ υ} {cs : List Call} {peer : Address} {m : Message}
    {ticket : Ticket} {old : Stage} (h : w.calls = cs ++ [⟨peer, m, ticket, old⟩])
    (stage : Stage) (requests : Requests) (site : Site) :
    (w.go cs.length stage requests site).calls = cs ++ [⟨peer, m, ticket, stage⟩] := by
  show w.calls.modify cs.length _ = _
  rw [h, List.modify_eq_take_cons_drop (by simp)]
  simp

/-- A caller that nobody comes between does what `Node.request` does. -/
theorem exists_run_request (s : Services σ γ υ) (w : Callers σ γ υ) (peer : Address) (m : Message)
    (ticket : Ticket) : ∃ v, Run s (fun _ _ => True) w v ∧
      v.node = (w.node.request peer m ticket).1 ∧
      v.calls = w.calls ++
        [⟨peer, m, ticket, .returned (w.node.request peer m ticket).2⟩] := by
  have hlast : ∀ {v : Callers σ γ υ} {x : Call}, v.calls = w.calls ++ [x] →
      v.calls[w.calls.length]? = some x := by
    intro v x h
    rw [h]
    exact List.getElem?_concat_length
  obtain ⟨v, run, hnode, hcalls⟩ : ∃ v, Run s (fun _ _ => True) w v ∧
      v.node = { w.node with
        requests := (w.node.requests.forget w.node.site).1
        site := (w.node.requests.forget w.node.site).2 } ∧
      v.calls = w.calls ++ [⟨peer, m, ticket, .forgot⟩] := by
    have henter : Run s (fun _ _ => True) w
        { w with calls := w.calls ++ [⟨peer, m, ticket, .entered⟩] } :=
      .single ⟨.other, trivial, .enter peer m ticket⟩
    exact ⟨_, henter.tail ⟨.forget, trivial, .forget (hlast rfl) rfl⟩, rfl, calls_go_last rfl _ _ _⟩
  unfold Node.request Requests.send
  generalize w.node.requests.forget w.node.site = state at hnode ⊢
  obtain ⟨r, site⟩ := state
  cases hreserve : r.reserve peer ticket with
  | none =>
    simp only [hreserve]
    have hnone : v.node.requests.reserve peer ticket = none := by
      rw [hnode]
      exact hreserve
    refine ⟨_, run.tail ⟨.other, trivial, .exhausted (hlast hcalls) rfl hnone⟩, ?_,
      calls_go_last hcalls _ _ _⟩
    exact hnode
  | some reserved =>
    obtain ⟨id, r'⟩ := reserved
    simp only [hreserve]
    obtain ⟨u, run, hnode, hcalls⟩ : ∃ u, Run s (fun _ _ => True) w u ∧
        u.node = { w.node with requests := r', site := site } ∧
        u.calls = w.calls ++ [⟨peer, m, ticket, .holding id⟩] := by
      have hsome : v.node.requests.reserve peer ticket = some (id, r') := by
        rw [hnode]
        exact hreserve
      refine ⟨_, run.tail ⟨.reserve _ id, trivial, .reserve (hlast hcalls) rfl hsome⟩, ?_,
        calls_go_last hcalls (.holding id) r' v.node.site⟩
      show { v.node with requests := r', site := v.node.site } = _
      rw [hnode]
    cases hdispatch : Requests.dispatch site.net peer m id with
    | ok net =>
      have hok : Requests.dispatch u.node.site.net peer m id = .ok net := by
        rw [hnode]
        exact hdispatch
      refine ⟨_, run.tail ⟨.other, trivial, .dispatch (hlast hcalls) rfl hok⟩, ?_,
        calls_go_last hcalls _ _ _⟩
      show { u.node with requests := u.node.requests, site := { u.node.site with net := net } } = _
      rw [hnode]
    | error e =>
      have herror : Requests.dispatch u.node.site.net peer m id = .error e := by
        rw [hnode]
        exact hdispatch
      have hfail := run.tail ⟨.other, trivial, .fail (hlast hcalls) rfl herror⟩
      have hfailing := calls_go_last hcalls (.failing id e) u.node.requests u.node.site
      refine ⟨_, hfail.tail ⟨.undo _, trivial, .undo (hlast hfailing) rfl⟩, ?_,
        calls_go_last hfailing _ _ _⟩
      show { u.node with
        requests := (Requests.drop (u.node.requests, u.node.site) id).1
        site := (Requests.drop (u.node.requests, u.node.site) id).2 } = _
      rw [hnode]

theorem step_cancel (s : Services σ γ υ) {w : Callers σ γ υ} {ticket : Ticket}
    (h : (w.node.cancel ticket).2 = true) :
    Step s w (.cancel ticket) { w with node := (w.node.cancel ticket).1 } := by
  unfold Node.cancel Requests.cancel at h ⊢
  cases hfind : w.node.requests.entries.find? (·.ticket == ticket) with
  | none =>
    rw [hfind] at h
    cases h
  | some e =>
    have hticket : e.ticket = ticket := by simpa using List.find?_some hfind
    rw [← hticket]
    exact .cancel (List.mem_of_find?_eq_some hfind)

end Callers

end Parley
