import Parley.Node

/-!
# Requests, answers, and what is under way between them

A node that asks, the peers that answer, and the messages that are under way. Every message under
way is marked with the ticket of the request that it belongs to. Nobody who takes part sees the
mark: it is there to say whose answer an answer is.

- `Answers`: what an honest peer sends back for a request, which has the id of the request
  (`Answers.responseId?_eq`).
- `Exchange.Step`: one thing that happens. The channels to and from a peer keep the order; a peer
  takes its time for an answer and gives at most one.
- `Exchange.carried_of_step`, `Exchange.entries_of_step`, `Exchange.fulfilled_of_step`: where
  messages under way, waiting requests and fulfilments come from in a step.
-/

namespace Parley

/-! ## Requests and answers -/

/-- What an honest peer sends back for a request: the reply to a user message, or the echo itself. -/
inductive Answers : Message → Message → Prop
  | reply {m : UserMessage} {payload : Bytes} {r : ReplyMessage} (h : m.reply payload = some r) :
      Answers (.user m) (.reply r)
  | bounce {m : EchoMessage} (h : m.echoed = false) : Answers (.echo m) (.echo m.received)

/-- An answer has the id of its request. -/
theorem Answers.responseId?_eq {question answer : Message} (h : Answers question answer) :
    answer.responseId? = question.responseId? := by
  cases h with
  | @reply m payload r h =>
    unfold UserMessage.reply at h
    cases hid : m.responseId with
    | none =>
      rw [hid] at h
      cases h
    | some id =>
      rw [hid] at h
      cases h
      exact hid.symm
  | bounce h => rfl

/-- Whether a message would be taken as an answer. -/
def Message.isAnswer : Message → Bool
  | .reply _ => true
  | .echo body => body.echoed
  | _ => false

theorem Answers.isAnswer {question answer : Message} (h : Answers question answer) :
    answer.isAnswer = true := by
  cases h with
  | reply h => rfl
  | bounce h => rfl

theorem Message.responseId?_withResponseId {m question : Message} {id : ResponseId}
    (h : m.withResponseId id = .ok question) : question.responseId? = some id := by
  cases m <;> cases h <;> rfl

/-! ## Operations on the waiting requests -/

namespace Requests

theorem get?_eq_none {r : Requests} {id : ResponseId} :
    r.get? id = none ↔ ∀ p ∈ r.entries, p.id ≠ id := by
  simp [get?]

theorem mem_of_get? {r : Requests} {id : ResponseId} {p : Pending} (h : r.get? id = some p) :
    p ∈ r.entries ∧ p.id = id := by
  have hid := List.find?_some h
  exact ⟨List.mem_of_find?_eq_some h, by simpa using hid⟩

/-- Ending the request of an id leaves the requests of all other ids. -/
theorem entries_drop (r : Requests) (site : Site) (id : ResponseId) :
    (drop (r, site) id).1.entries = r.entries.filter (·.id != id) := by
  unfold drop remove
  cases hget : r.get? id with
  | none =>
    have hall := get?_eq_none.mp hget
    exact (List.filter_eq_self.mpr fun p hp => by simpa using hall p hp).symm
  | some p =>
    dsimp only
    by_cases htaken : r.taken.contains id = true
    · simp only [htaken, if_true]
    · simp only [htaken]
      rfl

/-- No request comes to wait by forgetting. -/
theorem mem_of_mem_forget {r : Requests} {site : Site} {p : Pending}
    (h : p ∈ (r.forget site).1.entries) : p ∈ r.entries := by
  unfold forget at h
  generalize r.lost site.net = ids at h
  induction ids generalizing r site with
  | nil => exact h
  | cons id ids ih =>
    have hmem : p ∈ (drop (r, site) id).1.entries := ih h
    rw [entries_drop] at hmem
    exact (List.mem_filter.mp hmem).1

/-- A request that is sent waits under its id, alone, and others that wait have waited before. -/
theorem send_ok {r r' : Requests} {site site' : Site} {peer : Address} {m : Message}
    {ticket : Ticket} (h : r.send site peer m ticket = (r', site', .ok ())) :
    ∃ id question, m.withResponseId id = .ok question ∧
      r'.entries = (r.forget site).1.entries.filter (·.id != id) ++ [⟨id, peer, ticket⟩] := by
  unfold send at h
  generalize r.forget site = state at h ⊢
  obtain ⟨r₁, site₁⟩ := state
  cases hfree : r₁.freeId? with
  | none =>
    simp only [reserve, hfree, Option.map_none] at h
    cases h
  | some id =>
    simp only [reserve, hfree, Option.map_some, dispatch] at h
    cases hquestion : m.withResponseId id with
    | error e =>
      rw [hquestion] at h
      cases h
    | ok question =>
      rw [hquestion] at h
      cases hsend : site₁.net.send peer question with
      | error e =>
        simp only [hsend] at h
        cases h
      | ok net =>
        simp only [hsend] at h
        cases h
        exact ⟨id, question, hquestion, rfl⟩

/-- A request that cannot be sent does not wait. -/
theorem send_error {r r' : Requests} {site site' : Site} {peer : Address} {m : Message}
    {ticket : Ticket} {e : Error} (h : r.send site peer m ticket = (r', site', .error e)) :
    ∀ p ∈ r'.entries, p ∈ r.entries := by
  have hforget : ∀ p ∈ (r.forget site).1.entries, p ∈ r.entries := fun p hp => mem_of_mem_forget hp
  unfold send at h
  generalize r.forget site = state at h hforget
  obtain ⟨r₁, site₁⟩ := state
  cases hfree : r₁.freeId? with
  | none =>
    simp only [reserve, hfree, Option.map_none] at h
    cases h
    exact hforget
  | some id =>
    simp only [reserve, hfree, Option.map_some] at h
    split at h
    · cases h
    · have hr := congrArg (fun x => x.1.entries) h
      simp only [entries_drop] at hr
      intro p hp
      rw [← hr, List.mem_filter, List.mem_append] at hp
      rcases hp with ⟨hp | hp, hid⟩
      · exact hforget p (List.mem_filter.mp hp).1
      · rw [List.mem_singleton.mp hp] at hid
        simp at hid

theorem mem_of_mem_cancel {r : Requests} {site : Site} {ticket : Ticket} {p : Pending}
    (h : p ∈ (r.cancel site ticket).1.entries) : p ∈ r.entries := by
  unfold cancel at h
  split at h
  · exact h
  · dsimp only at h
    rw [entries_drop] at h
    exact (List.mem_filter.mp h).1

/-- An answer ends the request of its id, and belongs to it. -/
theorem answer_eq (r : Requests) (site : Site) (id : ResponseId) :
    (r.answer site id).1.entries = r.entries.filter (·.id != id) ∧
      (r.answer site id).2.2 = (r.get? id).map (·.ticket) := by
  unfold answer
  cases hget : r.get? id with
  | none =>
    have hall := get?_eq_none.mp hget
    refine ⟨?_, rfl⟩
    exact (List.filter_eq_self.mpr fun p hp => by simpa using hall p hp).symm
  | some p => exact ⟨entries_drop r site id, rfl⟩

end Requests

/-! ## Answers at a node -/

namespace Node

variable {σ γ υ : Type}

/-- A message that is no answer leaves requests and answers alone. -/
theorem handle_of_not_isAnswer (s : Services σ γ υ) (n : Node σ γ υ) (sender : Address)
    {m : Message} (h : m.isAnswer = false) :
    (n.handle s sender m).1.requests = n.requests ∧ (n.handle s sender m).1.answers = n.answers := by
  cases m with
  | keepAlive => exact ⟨rfl, rfl⟩
  | reply body => cases h
  | echo body =>
    have hnot : ¬ body.echoed = true := by simpa [Message.isAnswer] using h
    simp only [handle, handleEcho, if_neg hnot]
    split <;> exact ⟨rfl, rfl⟩
  | chat body => exact ⟨rfl, rfl⟩
  | sync body =>
    simp only [handle]
    split <;> exact ⟨rfl, rfl⟩
  | grid body =>
    simp only [handle]
    split <;> exact ⟨rfl, rfl⟩
  | user body =>
    simp only [handle]
    split <;> exact ⟨rfl, rfl⟩

/-- An answer with an id is brought to the request that waits under the id. -/
theorem handle_of_isAnswer (s : Services σ γ υ) (n : Node σ γ υ) (sender : Address) {m : Message}
    {id : ResponseId} (h : m.isAnswer = true) (hid : m.responseId? = some id) :
    (n.handle s sender m).1 = n.answer id m := by
  cases m with
  | reply body =>
    cases hid
    rfl
  | echo body =>
    have hechoed : body.echoed = true := h
    have hsome : body.responseId = some id := hid
    simp only [handle, handleEcho, if_pos hechoed, hsome]
  | _ => cases h

/-- What an answer does to the requests, and whom it fulfils. -/
theorem answer_eq (n : Node σ γ υ) (id : ResponseId) (m : Message) :
    (n.answer id m).requests.entries = n.requests.entries.filter (·.id != id) ∧
      (n.answer id m).answers =
        n.answers ++ ((n.requests.get? id).map fun p => (p.ticket, m)).toList := by
  obtain ⟨hentries, hticket⟩ := n.requests.answer_eq n.site id
  refine ⟨hentries, ?_⟩
  show n.answers ++ (((n.requests.answer n.site id).2.2).map (·, m)).toList = _
  rw [hticket, Option.map_map]
  rfl

/-- A message leaves requests and answers alone, or is brought to the request of its id. -/
theorem handle_cases (s : Services σ γ υ) (n : Node σ γ υ) (sender : Address) (m : Message) :
    ((n.handle s sender m).1.requests = n.requests ∧ (n.handle s sender m).1.answers = n.answers) ∨
    (∃ id, m.responseId? = some id ∧ (n.handle s sender m).1 = n.answer id m) := by
  cases hanswer : m.isAnswer with
  | false => exact .inl (n.handle_of_not_isAnswer s sender hanswer)
  | true =>
    cases hid : m.responseId? with
    | some id => exact .inr ⟨id, rfl, n.handle_of_isAnswer s sender hanswer hid⟩
    | none =>
      cases m with
      | echo body =>
        have hechoed : body.echoed = true := hanswer
        have hnone : body.responseId = none := hid
        have hsame : n.handle s sender (.echo body) = (n, .ok ()) := by
          simp only [handle, handleEcho, if_pos hechoed, hnone]
        rw [hsame]
        exact .inl ⟨rfl, rfl⟩
      | reply body => cases hid
      | _ => cases hanswer

theorem send_of_request {n n' : Node σ γ υ} {peer : Address} {m : Message} {ticket : Ticket}
    {result : Except Error Unit} (h : n.request peer m ticket = (n', result)) :
    n.requests.send n.site peer m ticket = (n'.requests, n'.site, result) := by
  cases h
  rfl

end Node

/-! ## The exchange -/

/-- A message under way, with the ticket of the request that it is or answers. -/
structure Parcel where
  ticket : Ticket
  message : Message

/-- Whose event was fulfilled, and whose answer it was fulfilled with. -/
structure Fulfilment where
  waiting : Ticket
  asked : Ticket

/-- A node, its peers, and what is under way. -/
structure Exchange (σ γ υ : Type) where
  node : Node σ γ υ
  /-- The ticket of the next request. -/
  next : Ticket
  /-- Requests on their way to a peer, the oldest first. -/
  outgoing : Address → List Parcel
  /-- Requests that a peer has got and not answered. -/
  held : Address → List Parcel
  /-- Answers on their way back, the oldest first. -/
  incoming : Address → List Parcel
  fulfilled : List Fulfilment

namespace Exchange

variable {σ γ υ : Type}

/-- Replaces what a channel holds. -/
def put (channel : Address → List Parcel) (a : Address) (ps : List Parcel) : Address → List Parcel :=
  fun b => if b = a then ps else channel b

/-- Nothing has happened yet. -/
def start (net : Network) : Exchange σ γ υ where
  node := .new net
  next := 0
  outgoing := fun _ => []
  held := fun _ => []
  incoming := fun _ => []
  fulfilled := []

/-- An answer comes to the node. -/
def take (s : Services σ γ υ) (w : Exchange σ γ υ) (a : Address) (p : Parcel) (rest : List Parcel) :
    Exchange σ γ υ :=
  let node := (w.node.handle s a p.message).1
  { w with
    node := node
    incoming := put w.incoming a rest
    fulfilled := w.fulfilled ++
      (node.answers.drop w.node.answers.length).map fun (ticket, _) => ⟨ticket, p.ticket⟩ }

/-- What a step is, as far as it matters whether requests are mixed up. -/
inductive Move
  /-- A request takes an id. -/
  | ask (id : ResponseId)
  /-- A request or an answer comes nearer to whom it is for. -/
  | delivery
  | other
deriving DecidableEq

/-- One thing that happens. -/
inductive Step (s : Services σ γ υ) : Exchange σ γ υ → Move → Exchange σ γ υ → Prop
  /-- A request is sent. Its event is a new one. -/
  | ask {w : Exchange σ γ υ} {peer : Address} {m question : Message} {id : ResponseId}
      {node : Node σ γ υ} (h : w.node.request peer m w.next = (node, .ok ()))
      (hquestion : m.withResponseId id = .ok question)
      (hentry : node.requests.entries.getLast? = some ⟨id, peer, w.next⟩) :
      Step s w (.ask id) { w with
        node := node
        next := w.next + 1
        outgoing := put w.outgoing peer (w.outgoing peer ++ [⟨w.next, question⟩]) }
  /-- A request cannot be sent. -/
  | refuse {w : Exchange σ γ υ} {peer : Address} {m : Message} {node : Node σ γ υ} {e : Error}
      (h : w.node.request peer m w.next = (node, .error e)) :
      Step s w .other { w with node := node, next := w.next + 1 }
  | cancel {w : Exchange σ γ υ} (ticket : Ticket) :
      Step s w .other { w with node := (w.node.cancel ticket).1 }
  /-- A peer gets a request. -/
  | transmit {w : Exchange σ γ υ} {a : Address} {p : Parcel} {rest : List Parcel}
      (h : w.outgoing a = p :: rest) :
      Step s w .delivery { w with
        outgoing := put w.outgoing a rest
        held := put w.held a (p :: w.held a) }
  /-- A peer answers one of its requests, and has it no longer. -/
  | reply {w : Exchange σ γ υ} {a : Address} {p : Parcel} {answer : Message} {front back : List Parcel}
      (h : w.held a = front ++ p :: back) (hanswer : Answers p.message answer) :
      Step s w .delivery { w with
        held := put w.held a (front ++ back)
        incoming := put w.incoming a (w.incoming a ++ [⟨p.ticket, answer⟩]) }
  /-- The node handles an answer. -/
  | receive {w : Exchange σ γ υ} {a : Address} {p : Parcel} {rest : List Parcel}
      (h : w.incoming a = p :: rest) : Step s w .delivery (w.take s a p rest)
  /-- The node handles a message that is no answer, from whomever. -/
  | hear {w : Exchange σ γ υ} (a : Address) {m : Message} (h : m.isAnswer = false) :
      Step s w .other { w with node := (w.node.handle s a m).1 }
  /-- Anything else happens where the node runs: connections come and go, messages are sent. -/
  | environment {w : Exchange σ γ υ} (site : Site) :
      Step s w .other { w with node := { w.node with site := site } }
  /-- A connection is gone, and with it some of what was under way on it. -/
  | cut {w : Exchange σ γ υ} {a : Address} {outgoing held incoming : List Parcel}
      (hgone : w.node.site.net.isConnected a = false) (hout : outgoing.Sublist (w.outgoing a))
      (hheld : held.Sublist (w.held a)) (hin : incoming.Sublist (w.incoming a)) :
      Step s w .other { w with
        outgoing := put w.outgoing a outgoing
        held := put w.held a held
        incoming := put w.incoming a incoming }

/-- A run all of whose steps are allowed. -/
inductive Run (s : Services σ γ υ) (allowed : Exchange σ γ υ → Move → Prop) :
    Exchange σ γ υ → Exchange σ γ υ → Prop
  | nil (w : Exchange σ γ υ) : Run s allowed w w
  | snoc {w v v' : Exchange σ γ υ} {move : Move} (run : Run s allowed w v)
      (hallowed : allowed v move) (h : Step s v move v') : Run s allowed w v'

theorem Run.append {s : Services σ γ υ} {allowed : Exchange σ γ υ → Move → Prop}
    {w v u : Exchange σ γ υ} (run : Run s allowed w v) (run' : Run s allowed v u) :
    Run s allowed w u := by
  induction run' with
  | nil => exact run
  | snoc run' hallowed h ih => exact ih.snoc hallowed h

theorem Run.cons {s : Services σ γ υ} {allowed : Exchange σ γ υ → Move → Prop}
    {w v u : Exchange σ γ υ} {move : Move} (hallowed : allowed w move) (h : Step s w move v)
    (run : Run s allowed v u) : Run s allowed w u :=
  ((Run.nil w).snoc hallowed h).append run

theorem Run.mono {s : Services σ γ υ} {allowed allowed' : Exchange σ γ υ → Move → Prop}
    {w v : Exchange σ γ υ} (run : Run s allowed w v)
    (h : ∀ w move, allowed w move → allowed' w move) : Run s allowed' w v := by
  induction run with
  | nil => exact .nil _
  | snoc run hallowed hstep ih => exact ih.snoc (h _ _ hallowed) hstep

/-! ## What a step does -/

theorem put_self (channel : Address → List Parcel) (a : Address) (ps : List Parcel) :
    put channel a ps a = ps := if_pos rfl

theorem mem_put {channel : Address → List Parcel} {a b : Address} {ps : List Parcel} {p : Parcel}
    (h : p ∈ put channel a ps b) : p ∈ channel b ∨ (b = a ∧ p ∈ ps) := by
  unfold put at h
  split at h
  · rename_i hb
    exact .inr ⟨hb, h⟩
  · exact .inl h

/-- A channel that only loses parcels has none that were not there. -/
theorem mem_put_of_subset {channel : Address → List Parcel} {a b : Address} {ps : List Parcel}
    {p : Parcel} (h : p ∈ put channel a ps b) (hps : ∀ q ∈ ps, q ∈ channel a) : p ∈ channel b := by
  rcases mem_put h with hold | ⟨rfl, hnew⟩
  · exact hold
  · exact hps p hnew

/-- A channel that takes a parcel has no other that was not there. -/
theorem mem_put_snoc {channel : Address → List Parcel} {a b : Address} {p q : Parcel}
    (h : p ∈ put channel a (channel a ++ [q]) b) : p ∈ channel b ∨ (b = a ∧ p = q) := by
  rcases mem_put h with hold | ⟨rfl, hnew⟩
  · exact .inl hold
  · rcases List.mem_append.mp hnew with hold | hlast
    · exact .inl hold
    · exact .inr ⟨rfl, List.mem_singleton.mp hlast⟩

/-- Whether an answer may come from a parcel under way: it is one, or a request that can be
answered. -/
def Carries (w : Exchange σ γ υ) (a : Address) (p : Parcel) : Prop :=
  p ∈ w.incoming a ∨ ((p ∈ w.outgoing a ∨ p ∈ w.held a) ∧ ∃ answer, Answers p.message answer)

/-- Whether an answer with an id is under way, or may yet be given. -/
def UnderWay (w : Exchange σ γ υ) (id : ResponseId) : Prop :=
  ∃ a p, w.Carries a p ∧ p.message.responseId? = some id

theorem carries_of_mem {w w' : Exchange σ γ υ} {a : Address} {p : Parcel} (hp : w'.Carries a p)
    (hout : ∀ q ∈ w'.outgoing a, q ∈ w.outgoing a)
    (hheld : ∀ q ∈ w'.held a, q ∈ w.outgoing a ∨ q ∈ w.held a)
    (hin : ∀ q ∈ w'.incoming a, q ∈ w.incoming a) : w.Carries a p := by
  rcases hp with hp | ⟨hp | hp, hanswer⟩
  · exact .inl (hin p hp)
  · exact .inr ⟨.inl (hout p hp), hanswer⟩
  · exact .inr ⟨hheld p hp, hanswer⟩

/-- What is under way was so before, perhaps as the request that it answers, or is the request that
was just sent. -/
theorem carried_of_step {s : Services σ γ υ} {w w' : Exchange σ γ υ} {move : Move}
    (h : Step s w move w') {a : Address} {p : Parcel} (hp : w'.Carries a p) :
    (∃ p₀, w.Carries a p₀ ∧ p₀.ticket = p.ticket ∧
      p₀.message.responseId? = p.message.responseId?) ∨
    (∃ id, move = .ask id ∧ p.ticket = w.next ∧ p.message.responseId? = some id) := by
  cases h with
  | ask h hquestion hentry =>
    rcases hp with hp | ⟨hp | hp, hanswer⟩
    · exact .inl ⟨p, .inl hp, rfl, rfl⟩
    · rcases mem_put_snoc hp with hold | ⟨rfl, rfl⟩
      · exact .inl ⟨p, .inr ⟨.inl hold, hanswer⟩, rfl, rfl⟩
      · exact .inr ⟨_, rfl, rfl, Message.responseId?_withResponseId hquestion⟩
    · exact .inl ⟨p, .inr ⟨.inr hp, hanswer⟩, rfl, rfl⟩
  | refuse h => exact .inl ⟨p, hp, rfl, rfl⟩
  | cancel ticket => exact .inl ⟨p, hp, rfl, rfl⟩
  | @transmit a₁ p₁ rest h =>
    have hfirst : ∀ q ∈ p₁ :: rest, q ∈ w.outgoing a₁ := fun q hq => by rw [h]; exact hq
    refine .inl ⟨p, carries_of_mem hp ?_ ?_ (fun _ hq => hq), rfl, rfl⟩
    · intro q hq
      exact mem_put_of_subset hq fun r hr => hfirst r (List.mem_cons_of_mem _ hr)
    · intro q hq
      rcases mem_put hq with hold | ⟨rfl, hnew⟩
      · exact .inr hold
      · rcases List.mem_cons.mp hnew with rfl | hold
        · exact .inl (hfirst q List.mem_cons_self)
        · exact .inr hold
  | @reply a₁ p₁ answer front back h hanswer =>
    have hheld : ∀ q ∈ front ++ p₁ :: back, q ∈ w.held a₁ := fun q hq => by rw [h]; exact hq
    rcases hp with hp | ⟨hp | hp, hcan⟩
    · rcases mem_put_snoc hp with hold | ⟨rfl, rfl⟩
      · exact .inl ⟨p, .inl hold, rfl, rfl⟩
      · -- the answer stands for the request that it answers
        have hmem := hheld p₁ (List.mem_append_right _ List.mem_cons_self)
        exact .inl ⟨p₁, .inr ⟨.inr hmem, answer, hanswer⟩, rfl, hanswer.responseId?_eq.symm⟩
    · exact .inl ⟨p, .inr ⟨.inl hp, hcan⟩, rfl, rfl⟩
    · have hleft : p ∈ w.held a := by
        refine mem_put_of_subset hp fun q hq => hheld q ?_
        rcases List.mem_append.mp hq with hfront | hback
        · exact List.mem_append_left _ hfront
        · exact List.mem_append_right _ (List.mem_cons_of_mem _ hback)
      exact .inl ⟨p, .inr ⟨.inr hleft, hcan⟩, rfl, rfl⟩
  | @receive a₁ p₁ rest h =>
    refine .inl ⟨p, carries_of_mem hp (fun _ hq => hq) (fun _ hq => .inr hq) ?_, rfl, rfl⟩
    intro q hq
    exact mem_put_of_subset hq fun r hr => by rw [h]; exact List.mem_cons_of_mem _ hr
  | hear a h => exact .inl ⟨p, hp, rfl, rfl⟩
  | environment site => exact .inl ⟨p, hp, rfl, rfl⟩
  | cut hgone hout hheld hin =>
    refine .inl ⟨p, carries_of_mem hp ?_ ?_ ?_, rfl, rfl⟩
    · exact fun q hq => mem_put_of_subset hq hout.subset
    · exact fun q hq => .inr (mem_put_of_subset hq hheld.subset)
    · exact fun q hq => mem_put_of_subset hq hin.subset

/-- What comes back are answers. -/
theorem isAnswer_of_step {s : Services σ γ υ} {w w' : Exchange σ γ υ} {move : Move}
    (h : Step s w move w') (hw : ∀ a, ∀ p ∈ w.incoming a, p.message.isAnswer = true) :
    ∀ a, ∀ p ∈ w'.incoming a, p.message.isAnswer = true := by
  cases h with
  | reply h hanswer =>
    intro b q hq
    rcases mem_put_snoc hq with hold | ⟨rfl, rfl⟩
    · exact hw b q hold
    · exact hanswer.isAnswer
  | receive h =>
    intro b q hq
    refine hw b q (mem_put_of_subset hq fun r hr => ?_)
    rw [h]
    exact List.mem_cons_of_mem _ hr
  | cut hgone hout hheld hin => exact fun b q hq => hw b q (mem_put_of_subset hq hin.subset)
  | _ => exact hw

/-- A request waits since before, under another id than the one just taken, or is the one that was
just sent. -/
theorem entries_of_step {s : Services σ γ υ} {w w' : Exchange σ γ υ} {move : Move}
    (h : Step s w move w') {e : Pending} (he : e ∈ w'.node.requests.entries) :
    (e ∈ w.node.requests.entries ∧ ∀ id, move = .ask id → e.id ≠ id) ∨
    (∃ id, move = .ask id ∧ e.id = id ∧ e.ticket = w.next) := by
  cases h with
  | @ask peer m question id node h hquestion hentry =>
    -- the id of the step is the one of the last entry, which is the new request
    obtain ⟨id', -, -, hentries⟩ := Requests.send_ok (Node.send_of_request h)
    rw [hentries, List.getLast?_concat] at hentry
    cases hentry
    replace he : e ∈ node.requests.entries := he
    rw [hentries] at he
    rcases List.mem_append.mp he with hold | hnew
    · obtain ⟨hforget, hid⟩ := List.mem_filter.mp hold
      refine .inl ⟨Requests.mem_of_mem_forget hforget, ?_⟩
      rintro _ ⟨⟩
      simpa using hid
    · rw [List.mem_singleton.mp hnew]
      exact .inr ⟨id, rfl, rfl, rfl⟩
  | refuse h =>
    exact .inl ⟨Requests.send_error (Node.send_of_request h) e he, fun _ => Move.noConfusion⟩
  | cancel ticket => exact .inl ⟨Requests.mem_of_mem_cancel he, fun _ => Move.noConfusion⟩
  | transmit h => exact .inl ⟨he, fun _ => Move.noConfusion⟩
  | reply h hanswer => exact .inl ⟨he, fun _ => Move.noConfusion⟩
  | @receive a p rest h =>
    refine .inl ⟨?_, fun _ => Move.noConfusion⟩
    rcases w.node.handle_cases s a p.message with ⟨hrequests, -⟩ | ⟨id, -, hanswer⟩
    · exact hrequests ▸ he
    · replace he : e ∈ (w.node.handle s a p.message).1.requests.entries := he
      rw [hanswer, (w.node.answer_eq id p.message).1] at he
      exact (List.mem_filter.mp he).1
  | @hear a m h =>
    have hrequests := (w.node.handle_of_not_isAnswer s a h).1
    exact .inl ⟨hrequests ▸ he, fun _ => Move.noConfusion⟩
  | environment site => exact .inl ⟨he, fun _ => Move.noConfusion⟩
  | cut hgone hout hheld hin => exact .inl ⟨he, fun _ => Move.noConfusion⟩

/-- An event is fulfilled by an answer that comes while its request waits under the answer's id. -/
theorem fulfilled_of_step {s : Services σ γ υ} {w w' : Exchange σ γ υ} {move : Move}
    (h : Step s w move w') {x : Fulfilment} (hx : x ∈ w'.fulfilled) :
    x ∈ w.fulfilled ∨ ∃ a, ∃ p ∈ w.incoming a, ∃ e ∈ w.node.requests.entries,
      p.message.responseId? = some e.id ∧ x = ⟨e.ticket, p.ticket⟩ := by
  cases h with
  | @receive a p rest h =>
    rcases List.mem_append.mp hx with hold | hnew
    · exact .inl hold
    · rcases w.node.handle_cases s a p.message with ⟨-, hanswers⟩ | ⟨id, hid, hanswer⟩
      · rw [hanswers, List.drop_length] at hnew
        cases hnew
      · -- the answer that was added last is to the request that waits under the id
        rw [hanswer, (w.node.answer_eq id p.message).2, List.drop_left] at hnew
        cases hget : w.node.requests.get? id with
        | none =>
          rw [hget] at hnew
          cases hnew
        | some e =>
          rw [hget] at hnew
          obtain ⟨hmem, rfl⟩ := Requests.mem_of_get? hget
          refine .inr ⟨a, p, ?_, e, hmem, hid, List.mem_singleton.mp hnew⟩
          rw [h]
          exact List.mem_cons_self
  | _ => exact .inl hx

/-- Every request that is sent is a step. -/
theorem Step.exists_ask (s : Services σ γ υ) {w : Exchange σ γ υ} {peer : Address} {m : Message}
    {node : Node σ γ υ} (h : w.node.request peer m w.next = (node, .ok ())) :
    ∃ id w', Step s w (.ask id) w' ∧ w'.node = node := by
  obtain ⟨id, question, hquestion, hentries⟩ := Requests.send_ok (Node.send_of_request h)
  have hentry : node.requests.entries.getLast? = some ⟨id, peer, w.next⟩ := by
    rw [hentries, List.getLast?_concat]
  exact ⟨id, _, .ask h hquestion hentry, rfl⟩

end Exchange

end Parley
