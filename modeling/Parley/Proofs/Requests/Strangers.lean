import Parley.Proofs.Requests.Balance

/-!
# Who can answer a request

A request waits under an id, and it is known which peer was asked. An answer is brought to the request
of the id that it carries; where it comes from does not matter.

* `Requests.Balanced.get?_eq`, `Requests.Balanced.filter_id` — an id belongs to one request;
* `Node.handle_of_isAnswerTo`, `Node.handle_of_answers_none` — what a message does, to the request
  that it carries the id of and if there is none; `Node.mem_handle_iff` — which requests stay;
* `Ledger.asked_peer_iff` — a peer ends none of the requests to others exactly if its message
  carries the id of none.
-/

namespace Parley

/-- Whether a message would be taken as the answer to the request of an id. -/
def Message.isAnswerTo (m : Message) (id : ResponseId) : Bool :=
  m.isAnswer && m.responseId? == some id

theorem Message.isAnswerTo_iff {m : Message} {id : ResponseId} :
    m.isAnswerTo id = true ↔ m.isAnswer = true ∧ m.responseId? = some id := by
  simp [isAnswerTo]

/-- A message carries one id. -/
theorem Message.id_unique {m : Message} {id id' : ResponseId} (h : m.isAnswerTo id = true)
    (h' : m.isAnswerTo id' = true) : id = id' := by
  have hid := (isAnswerTo_iff.mp h).2
  have hid' := (isAnswerTo_iff.mp h').2
  exact Option.some.inj (hid.symm.trans hid')

namespace Requests

variable {r : Requests}

/-- Requests that wait under the same id are the same. -/
theorem Balanced.eq_of_id_eq (h : r.Balanced) {p q : Pending} (hp : p ∈ r.entries)
    (hq : q ∈ r.entries) (hid : p.id = q.id) : p = q := by
  have hnodup : (r.entries.map (·.id)).Nodup := h.keys.nodup_iff.mpr h.nodup
  exact List.inj_on_of_nodup_map hnodup hp hq hid

theorem Balanced.get?_eq (h : r.Balanced) {p : Pending} (hp : p ∈ r.entries) :
    r.get? p.id = some p := by
  cases hget : r.get? p.id with
  | none => exact absurd rfl (get?_eq_none.mp hget p hp)
  | some q =>
    obtain ⟨hq, hid⟩ := mem_of_get? hget
    rw [h.eq_of_id_eq hq hp hid]

/-- To leave out an id is to leave out the request that waits under it. -/
theorem Balanced.filter_id (h : r.Balanced) {p : Pending} (hp : p ∈ r.entries) :
    r.entries.filter (·.id != p.id) = r.entries.filter (· != p) := by
  refine List.filter_congr ?_
  intro q hq
  by_cases hqp : q = p
  · rw [hqp, bne_self_eq_false, bne_self_eq_false]
  · have hid : q.id ≠ p.id := fun hid => hqp (h.eq_of_id_eq hq hp hid)
    rw [bne_iff_ne.mpr hid, bne_iff_ne.mpr hqp]

end Requests

namespace Node

variable {σ γ υ : Type} {n : Node σ γ υ} {m : Message}

/-- A message that carries the id of a request that waits ends it and fulfils its ticket, whoever
sends it. All others go on to wait. -/
theorem handle_of_isAnswerTo (hbalanced : n.requests.Balanced) {p : Pending}
    (hp : p ∈ n.requests.entries) (h : m.isAnswerTo p.id = true) (s : Services σ γ υ)
    (sender : Address) :
    (n.handle s sender m).1.requests.entries = n.requests.entries.filter (· != p) ∧
      (n.handle s sender m).1.answers = n.answers ++ [(p.ticket, m)] := by
  obtain ⟨hanswer, hid⟩ := Message.isAnswerTo_iff.mp h
  obtain ⟨hentries, hanswers⟩ := n.answer_eq p.id m
  rw [n.handle_of_isAnswer s sender hanswer hid]
  refine ⟨hentries.trans (hbalanced.filter_id hp), ?_⟩
  rw [hanswers, hbalanced.get?_eq hp]
  rfl

/-- A message that carries the id of no request that waits leaves requests and answers alone. -/
theorem handle_of_answers_none (h : ∀ p ∈ n.requests.entries, m.isAnswerTo p.id = false)
    (s : Services σ γ υ) (sender : Address) :
    (n.handle s sender m).1.requests = n.requests ∧
      (n.handle s sender m).1.answers = n.answers := by
  cases hanswer : m.isAnswer with
  | false => exact n.handle_of_not_isAnswer s sender hanswer
  | true =>
    rcases n.handle_cases s sender m with hsame | ⟨id, hid, hhandle⟩
    · exact hsame
    · have hget : n.requests.get? id = none := by
        refine Requests.get?_eq_none.mpr ?_
        rintro p hp rfl
        have hno := h p hp
        rw [Message.isAnswerTo_iff.mpr ⟨hanswer, hid⟩] at hno
        cases hno
      have hnone : n.requests.answer n.site id = (n.requests, n.site, none) := by
        rw [Requests.answer, hget]
      rw [hhandle, answer, hnone]
      exact ⟨rfl, List.append_nil _⟩

/-- A request goes on to wait unless the message is an answer to it. -/
theorem mem_handle_iff (hbalanced : n.requests.Balanced) {p : Pending}
    (hp : p ∈ n.requests.entries) (s : Services σ γ υ) (sender : Address) :
    p ∈ (n.handle s sender m).1.requests.entries ↔ m.isAnswerTo p.id = false := by
  by_cases hanswered : ∃ q ∈ n.requests.entries, m.isAnswerTo q.id = true
  · obtain ⟨q, hq, hanswer⟩ := hanswered
    obtain ⟨hended, -⟩ := handle_of_isAnswerTo hbalanced hq hanswer s sender
    rw [hended, List.mem_filter, and_iff_right hp, bne_iff_ne, ← Bool.not_eq_true]
    apply not_congr
    constructor
    · rintro rfl
      exact hanswer
    · intro hanswer'
      exact hbalanced.eq_of_id_eq hp hq (Message.id_unique hanswer' hanswer)
  · simp only [not_exists, not_and, Bool.not_eq_true] at hanswered
    obtain ⟨hsame, -⟩ := handle_of_answers_none hanswered s sender
    rw [hsame]
    exact ⟨fun _ => hanswered p hp, fun _ => hp⟩

end Node

namespace Ledger

variable {σ γ υ : Type} {s : Services σ γ υ} {w : Ledger σ γ υ}

/-- Whatever was done before, and whoever sends a message: a request that waits goes on to wait unless
the message is an answer and carries its id. If it is, it fulfils the ticket of this request and
ends no other. So the requests to others are safe from a peer exactly if its message carries the id of
none of them. -/
theorem asked_peer_iff {net : Network} (run : Relation.ReflTransGen (Step s) (start net) w)
    (sender : Address) (m : Message) :
    let n := w.node
    let n' := (n.handle s sender m).1
    (∀ p ∈ n.requests.entries, (p ∈ n'.requests.entries ↔ m.isAnswerTo p.id = false) ∧
      (m.isAnswerTo p.id = true → n'.requests.entries = n.requests.entries.filter (· != p) ∧
        n'.answers = n.answers ++ [(p.ticket, m)])) ∧
    ((∀ p ∈ n.requests.entries, m.isAnswerTo p.id = false) →
      n'.requests = n.requests ∧ n'.answers = n.answers) ∧
    ((∀ p ∈ n.requests.entries, p.peer ≠ sender → p ∈ n'.requests.entries) ↔
      ∀ p ∈ n.requests.entries, m.isAnswerTo p.id = true → p.peer = sender) := by
  intro n n'
  have hbalanced : n.requests.Balanced := ((sound_start net).run run).balanced
  have hstays {p : Pending} (hp : p ∈ n.requests.entries) :
      p ∈ n'.requests.entries ↔ m.isAnswerTo p.id = false :=
    Node.mem_handle_iff hbalanced hp s sender
  refine ⟨?_, ?_, ?_⟩
  · intro p hp
    exact ⟨hstays hp, fun h => Node.handle_of_isAnswerTo hbalanced hp h s sender⟩
  · intro h
    exact Node.handle_of_answers_none h s sender
  · constructor
    · intro hsafe p hp hanswer
      by_contra hpeer
      have hno := (hstays hp).mp (hsafe p hp hpeer)
      rw [hanswer] at hno
      cases hno
    · intro hown p hp hpeer
      refine (hstays hp).mpr ?_
      cases hanswer : m.isAnswerTo p.id with
      | false => rfl
      | true => exact absurd (hown p hp hanswer) hpeer

/-! ## An answer of somebody who was not asked -/

open Exchange (friend befriended query quiet)

/-- Somebody else. -/
def stranger : Address :=
  .ipv4 10 0 0 2 1

/-- The friend is asked first and the stranger second. -/
theorem exists_waiting : ∃ w : Ledger Unit Unit Unit,
    Relation.ReflTransGen (Step quiet) (start (befriended.connect stranger)) w ∧
      w.node.requests.entries = [⟨1, friend, 0⟩, ⟨2, stranger, 1⟩] ∧ w.node.answers = [] := by
  have run : Relation.ReflTransGen (Step quiet) (start (befriended.connect stranger)) _ :=
    .tail .refl (step_request quiet _ friend (.user (query "first" 1)) 0)
  have run := run.tail (step_request quiet _ stranger (.user (query "second" 2)) 1)
  exact ⟨_, run, rfl, rfl⟩

/-- An answer of the friend to its own request leaves the request to the other alone. -/
theorem friend_ends_own : ∃ w : Ledger Unit Unit Unit,
    Relation.ReflTransGen (Step quiet) (start (befriended.connect stranger)) w ∧
      w.node.requests.entries = [⟨1, friend, 0⟩, ⟨2, stranger, 1⟩] ∧
      ⟨2, stranger, 1⟩ ∈
        (w.node.handle quiet friend (.reply ⟨1, "first", [10]⟩)).1.requests.entries := by
  obtain ⟨w, run, hentries, -⟩ := exists_waiting
  obtain ⟨-, -, hsafe⟩ := asked_peer_iff run friend (.reply ⟨1, "first", [10]⟩)
  refine ⟨w, run, hentries, hsafe.mpr ?_ _ ?_ ?_⟩
  · rw [hentries]
    decide
  · rw [hentries]
    decide
  · decide

/-- The stranger ends the request to the friend, and its answer is taken for the friend's. -/
theorem stranger_answers : ∃ w : Ledger Unit Unit Unit,
    Relation.ReflTransGen (Step quiet) (start (befriended.connect stranger)) w ∧
      ⟨1, friend, 0⟩ ∈ w.node.requests.entries ∧ friend ≠ stranger ∧
      let n' := (w.node.handle quiet stranger (.reply ⟨1, "first", [10]⟩)).1
      n'.requests.entries = [⟨2, stranger, 1⟩] ∧
        n'.answers = [(0, .reply ⟨1, "first", [10]⟩)] := by
  obtain ⟨w, run, hentries, hanswers⟩ := exists_waiting
  have hbalanced := ((sound_start _).run run).balanced
  have hp : ⟨1, friend, 0⟩ ∈ w.node.requests.entries := by
    rw [hentries]
    exact List.mem_cons_self
  obtain ⟨hended, hfulfilled⟩ := Node.handle_of_isAnswerTo hbalanced hp
    (m := .reply ⟨1, "first", [10]⟩) rfl quiet stranger
  rw [hentries] at hended
  rw [hanswers] at hfulfilled
  exact ⟨w, run, hp, by decide, hended, hfulfilled⟩

end Ledger

end Parley
