import Parley.Proofs.Requests.Exchange

/-!
# When a request gets its own answer

An id is free again as soon as its request is given up, while the request or its answer may still be
under way. The next request takes the id, and the late answer is taken for its own.

- `Exchange.Own.step`, `Exchange.own_of_run`: as long as no request takes an id that is under way,
  every event is fulfilled by the answer to its own request.
- `Exchange.foreign_of_reuse`: once a request takes such an id, deliveries alone fulfil its event
  with the answer to another one.
- `Exchange.own_answers_iff`: both together.
-/

namespace Parley

namespace Exchange

variable {σ γ υ : Type} {s : Services σ γ υ}

/-- No request takes an id that is under way. -/
def Careful (w : Exchange σ γ υ) (move : Move) : Prop :=
  ∀ id, move = .ask id → ¬ w.UnderWay id

/-- Only deliveries. -/
def Delivers (_ : Exchange σ γ υ) (move : Move) : Prop :=
  move = .delivery

/-! ## Careful runs -/

/-- What is under way with the id of a waiting request belongs to it, and so did the answers that
came. -/
structure Own (w : Exchange σ γ υ) : Prop where
  waiting : ∀ e ∈ w.node.requests.entries, ∀ a p, w.Carries a p →
    p.message.responseId? = some e.id → p.ticket = e.ticket
  fulfilled : ∀ x ∈ w.fulfilled, x.waiting = x.asked

theorem own_start (net : Network) : Own (start net : Exchange σ γ υ) :=
  ⟨fun _ h => (nomatch h), fun _ h => (nomatch h)⟩

theorem Own.step {w w' : Exchange σ γ υ} {move : Move} (hw : w.Own) (hcareful : Careful w move)
    (h : Step s w move w') : w'.Own := by
  refine ⟨?_, ?_⟩
  · intro e he a p hp hid
    rcases entries_of_step h he with ⟨hold, hother⟩ | ⟨id, hmove, heid, heticket⟩
    · rcases carried_of_step h hp with ⟨q, hq, hticket, hqid⟩ | ⟨id, hmove, -, hpid⟩
      · -- an answer has the ticket and the id of its request, so nothing is new here
        rw [← hticket]
        exact hw.waiting e hold a q hq (hqid.trans hid)
      · rw [hid] at hpid
        exact absurd (Option.some.inj hpid) (hother id hmove)
    · rcases carried_of_step h hp with ⟨q, hq, -, hqid⟩ | ⟨id', hmove', hticket, -⟩
      · -- the request that was just sent has taken the id of something under way
        rw [hid, heid] at hqid
        exact absurd ⟨a, q, hq, hqid⟩ (hcareful id hmove)
      · rw [hticket, heticket]
  · intro x hx
    rcases fulfilled_of_step h hx with hold | ⟨a, p, hp, e, he, hid, rfl⟩
    · exact hw.fulfilled x hold
    · exact (hw.waiting e he a p (.inl hp) hid).symm

theorem own_of_run {net : Network} {w : Exchange σ γ υ} (run : Run s Careful (start net) w) :
    w.Own := by
  induction run with
  | nil => exact own_start net
  | snoc run hcareful h ih => exact ih.step hcareful h

/-- Deliveries are careful. -/
theorem own_of_deliveries {w v : Exchange σ γ υ} (hw : w.Own) (run : Run s Delivers w v) :
    v.Own := by
  induction run with
  | nil => exact hw
  | snoc run hdelivers h ih =>
    refine ih.step ?_ h
    intro id hid
    rw [hid] at hdelivers
    cases hdelivers

/-! ## An id that is taken while it is under way -/

/-- What is under way belongs to requests that were made, and what comes back are answers. -/
structure WellFormed (w : Exchange σ γ υ) : Prop where
  tickets : ∀ a p, w.Carries a p → p.ticket < w.next
  answers : ∀ a, ∀ p ∈ w.incoming a, p.message.isAnswer = true

theorem wellFormed_start (net : Network) : WellFormed (start net : Exchange σ γ υ) := by
  refine ⟨?_, fun _ _ h => nomatch h⟩
  rintro a p (h | ⟨h | h, -⟩) <;> cases h

/-- Tickets are given out one after another. -/
theorem next_of_step {w w' : Exchange σ γ υ} {move : Move} (h : Step s w move w') :
    w.next ≤ w'.next ∧ ∀ id, move = .ask id → w.next < w'.next := by
  cases h with
  | ask h hquestion hentry => exact ⟨Nat.le_succ _, fun _ _ => Nat.lt_succ_self _⟩
  | refuse h => exact ⟨Nat.le_succ _, fun _ => Move.noConfusion⟩
  | _ => exact ⟨Nat.le_refl _, fun _ => Move.noConfusion⟩

theorem WellFormed.step {w w' : Exchange σ γ υ} {move : Move} (hw : w.WellFormed)
    (h : Step s w move w') : w'.WellFormed := by
  obtain ⟨hle, hlt⟩ := next_of_step h
  refine ⟨?_, isAnswer_of_step h hw.answers⟩
  intro a p hp
  rcases carried_of_step h hp with ⟨q, hq, hticket, -⟩ | ⟨id, hmove, hticket, -⟩
  · rw [← hticket]
    exact Nat.lt_of_lt_of_le (hw.tickets a q hq) hle
  · rw [hticket]
    exact hlt id hmove

theorem wellFormed_of_run {allowed : Exchange σ γ υ → Move → Prop} {net : Network}
    {w : Exchange σ γ υ} (run : Run s allowed (start net) w) : w.WellFormed := by
  induction run with
  | nil => exact wellFormed_start net
  | snoc run hallowed h ih => exact ih.step h

/-- A request waits under the id, and it is the one of the ticket. -/
def Waits (w : Exchange σ γ υ) (id : ResponseId) (ticket : Ticket) : Prop :=
  (∃ e ∈ w.node.requests.entries, e.id = id) ∧
    ∀ e ∈ w.node.requests.entries, e.id = id → e.ticket = ticket

theorem Waits.of_node {w v : Exchange σ γ υ} {id : ResponseId} {ticket : Ticket}
    (hw : w.Waits id ticket) (h : v.node = w.node) : v.Waits id ticket := by
  unfold Waits
  rw [h]
  exact hw

theorem waits_of_ask {w w' : Exchange σ γ υ} {id : ResponseId} (h : Step s w (.ask id) w') :
    w'.Waits id w.next := by
  refine ⟨?_, ?_⟩
  · cases h with
    | ask h hquestion hentry => exact ⟨_, List.mem_of_getLast? hentry, rfl⟩
  · intro e he hid
    rcases entries_of_step h he with ⟨-, hother⟩ | ⟨-, -, -, hticket⟩
    · exact absurd hid (hother id rfl)
    · exact hticket

/-- An answer with another id leaves the request waiting. -/
theorem Waits.take {w : Exchange σ γ υ} {id : ResponseId} {ticket : Ticket}
    (hw : w.Waits id ticket) (a : Address) {p : Parcel} (rest : List Parcel)
    (hid : p.message.responseId? ≠ some id) : (w.take s a p rest).Waits id ticket := by
  obtain ⟨⟨e, he, heid⟩, hall⟩ := hw
  have hentries : ∀ e, e.id = id → (e ∈ (w.take s a p rest).node.requests.entries ↔
      e ∈ w.node.requests.entries) := by
    intro e he
    show e ∈ (w.node.handle s a p.message).1.requests.entries ↔ _
    rcases w.node.handle_cases s a p.message with ⟨hrequests, -⟩ | ⟨other, hother, hanswer⟩
    · rw [hrequests]
    · have hne : e.id ≠ other := by
        rintro rfl
        rw [he] at hother
        exact hid hother
      rw [hanswer, (w.node.answer_eq other p.message).1, List.mem_filter]
      simp [hne]
  refine ⟨⟨e, (hentries e heid).mpr he, heid⟩, ?_⟩
  intro e he heid
  exact hall e ((hentries e heid).mp he) heid

/-- An answer with the id fulfils the event of the request that waits. -/
theorem fulfilled_take {w : Exchange σ γ υ} {id : ResponseId} {ticket : Ticket}
    (hw : w.Waits id ticket) (a : Address) {p : Parcel} (rest : List Parcel)
    (hanswer : p.message.isAnswer = true) (hid : p.message.responseId? = some id) :
    ⟨ticket, p.ticket⟩ ∈ (w.take s a p rest).fulfilled := by
  obtain ⟨⟨e, he, heid⟩, hall⟩ := hw
  cases hget : w.node.requests.get? id with
  | none => exact absurd heid (Requests.get?_eq_none.mp hget e he)
  | some e =>
    obtain ⟨hmem, hmemid⟩ := Requests.mem_of_get? hget
    refine List.mem_append_right _ ?_
    rw [w.node.handle_of_isAnswer s a hanswer hid, (w.node.answer_eq id p.message).2,
      List.drop_left, hget, ← hall e hmem hmemid]
    exact List.mem_cons_self

/-- A peer gets a request after all that were sent to it before. -/
theorem exists_transmit {w : Exchange σ γ υ} {a : Address} {p : Parcel} (h : p ∈ w.outgoing a) :
    ∃ v, Run s Delivers w v ∧ p ∈ v.held a ∧ v.node = w.node ∧ v.incoming = w.incoming := by
  obtain ⟨front, back, h⟩ := List.append_of_mem h
  suffices hrun : ∀ w' : Exchange σ γ υ, Run s Delivers w w' → w'.node = w.node →
      w'.incoming = w.incoming → w'.outgoing a = front ++ p :: back →
      ∃ v, Run s Delivers w v ∧ p ∈ v.held a ∧ v.node = w.node ∧ v.incoming = w.incoming from
    hrun w (.nil w) rfl rfl h
  clear h
  -- on the requests that stand before it on the channel
  induction front with
  | nil =>
    intro w' run hnode hin hout
    refine ⟨_, run.snoc rfl (.transmit hout), ?_, hnode, hin⟩
    show p ∈ put w'.held a (p :: w'.held a) a
    rw [put_self]
    exact List.mem_cons_self
  | cons q front ih =>
    intro w' run hnode hin hout
    exact ih _ (run.snoc rfl (.transmit hout)) hnode hin (put_self _ _ _)

/-- The answers of other requests come in one after another, and one of them has the id of the
request that waits. -/
theorem exists_foreign {w : Exchange σ γ υ} {a : Address} {id : ResponseId} {ticket : Ticket}
    (hwaits : w.Waits id ticket)
    (hin : ∀ q ∈ w.incoming a, q.ticket ≠ ticket ∧ q.message.isAnswer = true)
    {p : Parcel} (hp : p ∈ w.incoming a) (hid : p.message.responseId? = some id) :
    ∃ v, Run s Delivers w v ∧ ∃ x ∈ v.fulfilled, x.waiting ≠ x.asked := by
  generalize hqs : w.incoming a = qs at hin hp
  suffices hrun : ∀ w' : Exchange σ γ υ, Run s Delivers w w' → w'.Waits id ticket →
      w'.incoming a = qs → ∃ v, Run s Delivers w v ∧ ∃ x ∈ v.fulfilled, x.waiting ≠ x.asked from
    hrun w (.nil w) hwaits hqs
  clear hqs
  -- on what comes in; the first answer with the id is a foreign one, whether it is `p` or not
  induction qs with
  | nil => cases hp
  | cons q qs ih =>
    intro w' run hwaits hout
    obtain ⟨hticket, hanswer⟩ := hin q List.mem_cons_self
    by_cases hq : q.message.responseId? = some id
    · exact ⟨_, run.snoc rfl (.receive hout), _, fulfilled_take hwaits a qs hanswer hq, hticket.symm⟩
    · have hrest : p ∈ qs := by
        rcases List.mem_cons.mp hp with rfl | hp
        · exact absurd hid hq
        · exact hp
      exact ih (fun q hq => hin q (List.mem_cons_of_mem _ hq)) hrest _
        (run.snoc rfl (.receive hout)) (hwaits.take a qs hq) (put_self _ _ _)

/-- A peer answers a request of another ticket, and the answer has the id of the one that waits. -/
theorem foreign_of_held {w : Exchange σ γ υ} {a : Address} {id : ResponseId} {ticket : Ticket}
    (hwaits : w.Waits id ticket)
    (hin : ∀ q ∈ w.incoming a, q.ticket ≠ ticket ∧ q.message.isAnswer = true)
    {p : Parcel} (hp : p ∈ w.held a) (hticket : p.ticket ≠ ticket) {answer : Message}
    (hanswer : Answers p.message answer) (hid : p.message.responseId? = some id) :
    ∃ v, Run s Delivers w v ∧ ∃ x ∈ v.fulfilled, x.waiting ≠ x.asked := by
  obtain ⟨front, back, hheld⟩ := List.append_of_mem hp
  obtain ⟨w₁, hreply, hnode, hchannel⟩ : ∃ w₁, Step s w .delivery w₁ ∧ w₁.node = w.node ∧
      w₁.incoming a = w.incoming a ++ [⟨p.ticket, answer⟩] :=
    ⟨_, .reply hheld hanswer, rfl, put_self _ _ _⟩
  have hall : ∀ q ∈ w₁.incoming a, q.ticket ≠ ticket ∧ q.message.isAnswer = true := by
    intro q hq
    rw [hchannel] at hq
    rcases List.mem_append.mp hq with hold | hnew
    · exact hin q hold
    · rw [List.mem_singleton.mp hnew]
      exact ⟨hticket, hanswer.isAnswer⟩
  have hmem : ⟨p.ticket, answer⟩ ∈ w₁.incoming a := by
    rw [hchannel]
    exact List.mem_append_right _ List.mem_cons_self
  obtain ⟨v, run, hforeign⟩ := exists_foreign (s := s) (hwaits.of_node hnode) hall hmem
    (hanswer.responseId?_eq.trans hid)
  exact ⟨v, Run.cons rfl hreply run, hforeign⟩

/-- Once a request takes an id that is under way, deliveries alone fulfil its event with the answer
to another request. -/
theorem foreign_of_reuse {w w' : Exchange σ γ υ} {id : ResponseId} (hw : w.WellFormed)
    (h : Step s w (.ask id) w') (hunder : w.UnderWay id) :
    ∃ v, Run s Delivers w' v ∧ ∃ x ∈ v.fulfilled, x.waiting ≠ x.asked := by
  obtain ⟨a, p, hp, hid⟩ := hunder
  have hwaits := waits_of_ask h
  obtain ⟨hout, hheld, hin⟩ : (∀ p ∈ w.outgoing a, p ∈ w'.outgoing a) ∧ w'.held = w.held ∧
      w'.incoming = w.incoming := by
    cases h with
    | @ask peer m question id node h hquestion hentry =>
      refine ⟨?_, rfl, rfl⟩
      intro p hp
      show p ∈ put w.outgoing peer _ a
      unfold put
      split
      · rename_i ha
        exact List.mem_append_left _ (ha ▸ hp)
      · exact hp
  have hothers : ∀ q ∈ w'.incoming a, q.ticket ≠ w.next ∧ q.message.isAnswer = true := by
    intro q hq
    rw [hin] at hq
    exact ⟨Nat.ne_of_lt (hw.tickets a q (.inl hq)), hw.answers a q hq⟩
  have hticket : p.ticket ≠ w.next := Nat.ne_of_lt (hw.tickets a p hp)
  rcases hp with hp | ⟨hp | hp, answer, hanswer⟩
  · exact exists_foreign hwaits hothers (by rw [hin]; exact hp) hid
  · -- the request reaches its peer first
    obtain ⟨v, run, hv, hnode, hvin⟩ := exists_transmit (s := s) (hout p hp)
    rw [← hvin] at hothers
    obtain ⟨u, run', hforeign⟩ :=
      foreign_of_held (s := s) (hwaits.of_node hnode) hothers hv hticket hanswer hid
    exact ⟨u, run.append run', hforeign⟩
  · exact foreign_of_held hwaits hothers (by rw [hheld]; exact hp) hticket hanswer hid

/-! ## Both together -/

/-- While no request takes an id that is under way, every event is fulfilled by the answer to its own
request. A request that takes an id next may be given a foreign answer, by mere deliveries, exactly
if the id is under way. -/
theorem own_answers_iff {net : Network} {w : Exchange σ γ υ} (run : Run s Careful (start net) w) :
    (∀ x ∈ w.fulfilled, x.waiting = x.asked) ∧
      ∀ {id : ResponseId} {w' : Exchange σ γ υ}, Step s w (.ask id) w' →
        (w.UnderWay id ↔
          ∃ v, Run s Delivers w' v ∧ ∃ x ∈ v.fulfilled, x.waiting ≠ x.asked) := by
  refine ⟨(own_of_run run).fulfilled, ?_⟩
  intro id w' h
  refine ⟨foreign_of_reuse (wellFormed_of_run run) h, ?_⟩
  rintro ⟨v, deliveries, x, hx, hforeign⟩
  by_cases hunder : w.UnderWay id
  · exact hunder
  · have hcareful : Careful w (.ask id) := by
      rintro _ ⟨⟩
      exact hunder
    have hown := own_of_deliveries ((own_of_run run).step hcareful h) deliveries
    exact absurd (hown.fulfilled x hx) hforeign

/-! ## A request that is given up, and the next one -/

/-- A node whose services do nothing. -/
def quiet : Services Unit Unit Unit where
  objects := ⟨fun _ => "", fun _ => .ok (.remove ""), fun _ object => .ok object, id⟩
  grid := fun service site _ _ => (service, site, .ok ())
  user := fun service site _ _ => (service, site, .ok ())

/-- Whom the requests go to. -/
def friend : Address :=
  .ipv4 10 0 0 1 1

/-- A network with one connection. -/
def befriended : Network :=
  (Network.new .server .default (.ipv4 10 8 8 8 8) none).connect friend

/-- A request of some kind with a payload of one byte. -/
def query (kind : String) (n : UInt8) : UserMessage :=
  .new kind [n]

/-- The exchange after a request was sent. -/
def sent (w : Exchange Unit Unit Unit) (kind : String) (n : UInt8) (id : ResponseId) :
    Exchange Unit Unit Unit :=
  { w with
    node := (w.node.request friend (.user (query kind n)) w.next).1
    next := w.next + 1
    outgoing := put w.outgoing friend
      (w.outgoing friend ++ [⟨w.next, .user { query kind n with responseId := some id }⟩]) }

theorem step_sent {w : Exchange Unit Unit Unit} {kind : String} {n : UInt8} {id : ResponseId}
    (h : (w.node.request friend (.user (query kind n)) w.next).2 = .ok ())
    (hentry : (sent w kind n id).node.requests.entries.getLast? = some ⟨id, friend, w.next⟩) :
    Step quiet w (.ask id) (sent w kind n id) :=
  .ask (Prod.ext rfl h) rfl hentry

/-- A first request has been sent. -/
def asked : Exchange Unit Unit Unit :=
  sent (start befriended) "first" 1 1

theorem step_asked : Step quiet (start befriended) (.ask 1) asked :=
  step_sent rfl rfl

theorem run_asked : Run quiet Careful (start befriended) asked := by
  refine (Run.nil _).snoc ?_ step_asked
  rintro id - ⟨a, p, hp | ⟨hp | hp, -⟩, -⟩ <;> cases hp

/-- The first request has been answered. -/
theorem exists_answered :
    ∃ w, Run quiet Careful (start befriended) w ∧ ⟨0, 0⟩ ∈ w.fulfilled := by
  obtain ⟨u, hstep, hheld, hin, hnode⟩ : ∃ u, Step quiet asked .delivery u ∧
      u.held friend = [] ++ ⟨0, .user { query "first" 1 with responseId := some 1 }⟩ :: [] ∧
      u.incoming friend = [] ∧ u.node = asked.node := by
    refine ⟨_, .transmit (put_self _ _ _), ?_, rfl, rfl⟩
    show put asked.held friend _ friend = _
    rw [put_self]
    rfl
  obtain ⟨v, hstep', hin', hnode'⟩ : ∃ v, Step quiet u .delivery v ∧
      v.incoming friend = ⟨0, .reply ⟨1, "first", [3]⟩⟩ :: [] ∧ v.node = u.node := by
    have hanswer : Answers (.user { query "first" 1 with responseId := some 1 })
        (.reply ⟨1, "first", [3]⟩) := .reply rfl
    refine ⟨_, .reply hheld hanswer, ?_, rfl⟩
    show put u.incoming friend _ friend = _
    rw [put_self, hin]
    rfl
  have hwaits : v.Waits 1 0 := (waits_of_ask step_asked).of_node (hnode'.trans hnode)
  have hdelivers : ∀ w : Exchange Unit Unit Unit, Careful w .delivery := fun _ _ => Move.noConfusion
  exact ⟨_, ((run_asked.snoc (hdelivers _) hstep).snoc (hdelivers _) hstep').snoc (hdelivers _)
    (.receive hin'), fulfilled_take hwaits friend [] rfl rfl⟩

/-- The first request has been given up. -/
def abandoned : Exchange Unit Unit Unit :=
  { asked with node := (asked.node.cancel 0).1 }

theorem run_abandoned : Run quiet Careful (start befriended) abandoned :=
  run_asked.snoc (fun _ => Move.noConfusion) (.cancel 0)

/-- The first request is still under way. -/
theorem underWay_abandoned : abandoned.UnderWay 1 := by
  refine ⟨friend, ⟨0, .user { query "first" 1 with responseId := some 1 }⟩, .inr ⟨.inl ?_, ?_⟩, rfl⟩
  · show _ ∈ put (fun _ => []) friend [_] friend
    rw [put_self]
    exact List.mem_cons_self
  · exact ⟨.reply ⟨1, "first", []⟩, .reply rfl⟩

/-- The second request takes the id of the first. -/
theorem step_abandoned : Step quiet abandoned (.ask 1) (sent abandoned "second" 2 1) :=
  step_sent rfl rfl

/-- The answer to the request that was given up is taken for the answer to the next one. -/
theorem late_answer_is_taken : ∃ w, Run quiet (fun _ _ => True) (start befriended) w ∧
    ∃ x ∈ w.fulfilled, x.waiting ≠ x.asked := by
  obtain ⟨v, deliveries, hforeign⟩ :=
    foreign_of_reuse (wellFormed_of_run run_abandoned) step_abandoned underWay_abandoned
  have run := (run_abandoned.mono fun _ _ _ => trivial).snoc trivial step_abandoned
  exact ⟨v, run.append (deliveries.mono fun _ _ _ => trivial), hforeign⟩

/-- The first request gets its own answer if that comes in time. If the request is given up before,
the second one may get its answer. -/
theorem own_answer_in_time :
    (∃ w, Run quiet Careful (start befriended) w ∧ ⟨0, 0⟩ ∈ w.fulfilled ∧
      ∀ x ∈ w.fulfilled, x.waiting = x.asked) ∧
    ∃ v, Run quiet Delivers (sent abandoned "second" 2 1) v ∧
      ∃ x ∈ v.fulfilled, x.waiting ≠ x.asked := by
  obtain ⟨w, run, hmem⟩ := exists_answered
  exact ⟨⟨w, run, hmem, (own_answers_iff run).1⟩,
    ((own_answers_iff run_abandoned).2 step_abandoned).mp underWay_abandoned⟩

end Exchange

end Parley
