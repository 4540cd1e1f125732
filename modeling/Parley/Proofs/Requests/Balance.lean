import Mathlib.Data.List.Nodup
import Mathlib.Data.List.Perm.Basic
import Mathlib.Data.List.Count
import Parley.Proofs.Requests.Callers
import Parley.Proofs.Requests.OwnAnswers

/-!
# Ids and waiting requests stay in balance

An id is taken as long as a request waits under it, and no longer. A request stops waiting when its
answer comes, when it is given up, when its peer is gone or when it could not be sent; each of these
frees its id once. Which free id a request gets does not matter, nor when there is none left.

* `Requests.Balanced.drop_eq`, `Requests.Balanced.forget` — freeing an id never fails;
* `Requests.Balanced.sendUnder_cases` — what sending a request leaves behind;
* `Ledger.Sound.step`, `Ledger.Sound.run` — ids are in balance, and no ticket is fulfilled or given
  up more often than requests were made for it;
* `Ledger.ids_are_keys` — all of this for any sequence of operations;
* `Callers.balanced_of_step` — the balance when several callers come between each other.
-/

namespace Parley

namespace Requests

/-- The ids that are taken are those of the requests that wait, each of one. -/
structure Balanced (r : Requests) : Prop where
  nodup : r.taken.Nodup
  keys : (r.entries.map (·.id)).Perm r.taken

theorem balanced_empty : Balanced empty := ⟨List.nodup_nil, .refl _⟩

variable {r : Requests}

theorem Balanced.mem_taken_iff (h : r.Balanced) {id : ResponseId} :
    id ∈ r.taken ↔ ∃ e ∈ r.entries, e.id = id := by
  rw [← h.keys.mem_iff, List.mem_map]

/-- No request waits under an id that is free. -/
theorem Balanced.filter_eq_self (h : r.Balanced) {id : ResponseId} (free : id ∉ r.taken) :
    r.entries.filter (·.id != id) = r.entries := by
  refine List.filter_eq_self.mpr ?_
  intro e he
  have hne : e.id ≠ id := by
    rintro rfl
    exact free (h.mem_taken_iff.mpr ⟨e, he, rfl⟩)
  simpa using hne

/-! ## Ids that are freed -/

/-- An id under which a request waits is taken, so that it can be freed. -/
theorem Balanced.remove_eq (h : r.Balanced) (id : ResponseId) :
    r.remove id = (r.get? id).map fun p =>
      (p, ⟨r.taken.erase id, r.entries.filter (·.id != id)⟩, none) := by
  unfold remove
  cases hget : r.get? id with
  | none => rfl
  | some p =>
    have htaken : id ∈ r.taken := h.mem_taken_iff.mpr ⟨p, mem_of_get? hget⟩
    dsimp only
    rw [if_pos (List.contains_iff_mem.mpr htaken)]
    rfl

/-- Ending the request of an id frees the id, and nothing is written down. -/
theorem Balanced.drop_eq (h : r.Balanced) (site : Site) (id : ResponseId) :
    drop (r, site) id = (⟨r.taken.erase id, r.entries.filter (·.id != id)⟩, site) := by
  unfold drop
  rw [h.remove_eq]
  cases hget : r.get? id with
  | none =>
    have hfree : id ∉ r.taken := by
      rw [h.mem_taken_iff]
      rintro ⟨e, he, hid⟩
      exact get?_eq_none.mp hget e he hid
    rw [List.erase_of_not_mem hfree, h.filter_eq_self hfree]
    rfl
  | some p => rfl

theorem Balanced.drop (h : r.Balanced) (site : Site) (id : ResponseId) :
    (drop (r, site) id).1.Balanced := by
  rw [h.drop_eq]
  refine ⟨h.nodup.erase id, ?_⟩
  show ((r.entries.filter (·.id != id)).map (·.id)).Perm (r.taken.erase id)
  rw [h.nodup.erase_eq_filter, show r.entries.filter (·.id != id) =
    r.entries.filter ((· != id) ∘ (·.id)) from rfl, ← List.filter_map]
  exact h.keys.filter _

theorem Balanced.foldl_drop {ids : List ResponseId} (h : r.Balanced) (site : Site) :
    (ids.foldl Requests.drop (r, site)).1.Balanced ∧
      (ids.foldl Requests.drop (r, site)).2 = site := by
  induction ids generalizing r with
  | nil => exact ⟨h, rfl⟩
  | cons id ids ih =>
    rw [List.foldl_cons]
    have hdrop := h.drop site id
    rw [h.drop_eq] at hdrop ⊢
    exact ih hdrop

/-- Ending the requests to peers that are gone frees their ids, and nothing is written down. -/
theorem Balanced.forget (h : r.Balanced) (site : Site) :
    (r.forget site).1.Balanced ∧ (r.forget site).2 = site :=
  h.foldl_drop site

/-! ## Ids that are taken -/

/-- A request waits under an id. -/
def wait (r : Requests) (id : ResponseId) (peer : Address) (ticket : Ticket) : Requests :=
  ⟨id :: r.taken, r.entries.filter (·.id != id) ++ [⟨id, peer, ticket⟩]⟩

theorem Balanced.wait (h : r.Balanced) {id : ResponseId} (free : id ∉ r.taken) (peer : Address)
    (ticket : Ticket) : (r.wait id peer ticket).Balanced := by
  refine ⟨List.nodup_cons.mpr ⟨free, h.nodup⟩, ?_⟩
  have hentries : (r.wait id peer ticket).entries = r.entries ++ [⟨id, peer, ticket⟩] := by
    rw [Requests.wait, h.filter_eq_self free]
  rw [hentries, List.map_append]
  exact (List.perm_append_singleton id _).trans (h.keys.cons id)

/-- A request that is taken back at once leaves nothing behind. -/
theorem Balanced.drop_wait (h : r.Balanced) {id : ResponseId} (free : id ∉ r.taken)
    (peer : Address) (ticket : Ticket) (site : Site) :
    Requests.drop (r.wait id peer ticket, site) id = (r, site) := by
  rw [(h.wait free peer ticket).drop_eq]
  have hentries : (r.wait id peer ticket).entries.filter (·.id != id) = r.entries := by
    rw [Requests.wait, h.filter_eq_self free, List.filter_append, h.filter_eq_self free]
    simp
  have htaken : (r.wait id peer ticket).taken.erase id = r.taken := List.erase_cons_head id r.taken
  rw [hentries, htaken]

/-- Sends a request under the id that is picked for it, if one is. -/
def sendUnder (r : Requests) (site : Site) (peer : Address) (m : Message) (ticket : Ticket)
    (pick : Option ResponseId) : Requests × Site × Except Error Unit :=
  let (r, site) := r.forget site
  match pick with
  | none => (r, site, .error .responseIdsExhausted)
  | some id =>
    match dispatch site.net peer m id with
    | .ok net => (r.wait id peer ticket, { site with net := net }, .ok ())
    | .error e =>
      let (r, site) := drop (r.wait id peer ticket, site) id
      (r, site, .error e)

/-- Sending a request is sending it under the lowest id that is free. -/
theorem send_eq (r : Requests) (site : Site) (peer : Address) (m : Message) (ticket : Ticket) :
    r.send site peer m ticket = r.sendUnder site peer m ticket (r.forget site).1.freeId? := by
  unfold send sendUnder reserve
  generalize r.forget site = state
  obtain ⟨r, site⟩ := state
  dsimp only
  cases r.freeId? with
  | none => rfl
  | some id => rfl

/-- The id that is picked is free once the requests to peers that are gone have ended. -/
def Picks (r : Requests) (site : Site) (pick : Option ResponseId) : Prop :=
  ∀ id, pick = some id → id ∉ (r.forget site).1.taken

theorem picks_freeId? (r : Requests) (site : Site) :
    r.Picks site (r.forget site).1.freeId? :=
  fun _ h => freeId?_not_mem h

/-- Sending a request ends those to peers that are gone. If it fails that is all, and otherwise one
more request waits. Nothing is written down. -/
theorem Balanced.sendUnder_cases (h : r.Balanced) {site : Site} {pick : Option ResponseId}
    (picks : r.Picks site pick) (peer : Address) (m : Message) (ticket : Ticket) :
    (∃ e, r.sendUnder site peer m ticket pick = ((r.forget site).1, site, .error e)) ∨
      ∃ id net, id ∉ (r.forget site).1.taken ∧ r.sendUnder site peer m ticket pick =
        ((r.forget site).1.wait id peer ticket, { site with net := net }, .ok ()) := by
  obtain ⟨hforget, hsite⟩ := h.forget site
  have hstate : r.forget site = ((r.forget site).1, site) := Prod.ext rfl hsite
  unfold sendUnder
  rw [hstate]
  cases hpick : pick with
  | none => exact .inl ⟨.responseIdsExhausted, rfl⟩
  | some id =>
    have hfree := picks id hpick
    dsimp only
    cases hdispatch : dispatch site.net peer m id with
    | ok net => exact .inr ⟨id, net, hfree, rfl⟩
    | error e =>
      left
      refine ⟨e, ?_⟩
      rw [hforget.drop_wait hfree]

end Requests

/-! ## Sequences of operations -/

/-- A node, with what was asked of it. -/
structure Ledger (σ γ υ : Type) where
  node : Node σ γ υ
  /-- The tickets for which a request was made, whether it could be sent or not. -/
  asked : List Ticket
  /-- The tickets that were given up while a request waited for them. -/
  givenUp : List Ticket

namespace Node

variable {σ γ υ : Type}

/-- Sends a request under the id that is picked for it. -/
def requestUnder (n : Node σ γ υ) (peer : Address) (m : Message) (ticket : Ticket)
    (pick : Option ResponseId) : Node σ γ υ × Except Error Unit :=
  let (requests, site, result) := n.requests.sendUnder n.site peer m ticket pick
  ({ n with requests := requests, site := site }, result)

theorem request_eq (n : Node σ γ υ) (peer : Address) (m : Message) (ticket : Ticket) :
    n.request peer m ticket =
      n.requestUnder peer m ticket (n.requests.forget n.site).1.freeId? := by
  unfold request requestUnder
  rw [n.requests.send_eq]

/-- A request that fails leaves what forgetting has left, and one that is sent waits besides under
an id of its own. Nothing is written down. -/
theorem requestUnder_spec {n : Node σ γ υ} (h : n.requests.Balanced) {pick : Option ResponseId}
    (picks : n.requests.Picks n.site pick) (peer : Address) (m : Message) (ticket : Ticket) :
    let kept := (n.requests.forget n.site).1
    let sent := n.requestUnder peer m ticket pick
    sent.1.site.journal = n.site.journal ∧
      (∀ e, sent.2 = .error e → sent.1.requests = kept) ∧
      (sent.2 = .ok () → ∃ id, (∀ e ∈ kept.entries, e.id ≠ id) ∧
        sent.1.requests = ⟨id :: kept.taken, kept.entries ++ [⟨id, peer, ticket⟩]⟩) := by
  intro kept sent
  have hkept : kept.Balanced := (h.forget n.site).1
  have hsent : sent = n.requestUnder peer m ticket pick := rfl
  unfold requestUnder at hsent
  rcases h.sendUnder_cases picks peer m ticket with ⟨e, hsend⟩ | ⟨id, net, hfree, hsend⟩
  · rw [hsend] at hsent
    rw [hsent]
    refine ⟨rfl, fun _ _ => rfl, ?_⟩
    intro hok
    cases hok
  · rw [hsend] at hsent
    rw [hsent]
    refine ⟨rfl, ?_, ?_⟩
    · intro e herror
      cases herror
    · intro _
      refine ⟨id, ?_, ?_⟩
      · rintro e he rfl
        exact hfree (hkept.mem_taken_iff.mpr ⟨e, he, rfl⟩)
      · show kept.wait id peer ticket = _
        rw [Requests.wait, hkept.filter_eq_self hfree]

/-- The answers that a ticket got. -/
def answered (n : Node σ γ υ) (ticket : Ticket) : Nat :=
  (n.answers.map (·.1)).count ticket

end Node

namespace Ledger

variable {σ γ υ : Type}

def start (net : Network) : Ledger σ γ υ :=
  ⟨.new net, [], []⟩

/-- One operation on a node, or something that happens around it. -/
inductive Step (s : Services σ γ υ) (w : Ledger σ γ υ) : Ledger σ γ υ → Prop
  | request (peer : Address) (m : Message) (ticket : Ticket) {pick : Option ResponseId}
      (picks : w.node.requests.Picks w.node.site pick) :
      Step s w { w with
        node := (w.node.requestUnder peer m ticket pick).1
        asked := ticket :: w.asked }
  /-- A request of a ticket is given up, whichever waits for it. -/
  | cancel {e : Pending} (waits : e ∈ w.node.requests.entries) :
      Step s w { w with
        node := { w.node with
          requests := (Requests.drop (w.node.requests, w.node.site) e.id).1
          site := (Requests.drop (w.node.requests, w.node.site) e.id).2 }
        givenUp := e.ticket :: w.givenUp }
  | receive (sender : Address) (m : Message) :
      Step s w { w with node := (w.node.handle s sender m).1 }
  /-- Connections come and go, other messages are sent, services come and go, and the network may be
  shut down. -/
  | environment {node : Node σ γ υ} (requests : node.requests = w.node.requests)
      (answers : node.answers = w.node.answers) : Step s w { w with node := node }

/-- Sending a request is a step. -/
theorem step_request (s : Services σ γ υ) (w : Ledger σ γ υ) (peer : Address) (m : Message)
    (ticket : Ticket) : Step s w { w with
      node := (w.node.request peer m ticket).1
      asked := ticket :: w.asked } := by
  rw [w.node.request_eq]
  exact .request peer m ticket (w.node.requests.picks_freeId? w.node.site)

/-- Giving a request up is a step if one waits for the ticket, and changes nothing otherwise. -/
theorem step_cancel (s : Services σ γ υ) (w : Ledger σ γ υ) (ticket : Ticket) :
    ((w.node.cancel ticket).2 = true ∧ Step s w { w with
      node := (w.node.cancel ticket).1
      givenUp := ticket :: w.givenUp }) ∨ w.node.cancel ticket = (w.node, false) := by
  unfold Node.cancel Requests.cancel
  cases hfind : w.node.requests.entries.find? (·.ticket == ticket) with
  | none => exact .inr rfl
  | some e =>
    have hticket : e.ticket = ticket := by simpa using List.find?_some hfind
    rw [← hticket]
    exact .inl ⟨rfl, .cancel (List.mem_of_find?_eq_some hfind)⟩

/-- The requests that wait for a ticket. -/
def waiting (r : Requests) (ticket : Ticket) : Nat :=
  (r.entries.map (·.ticket)).count ticket

/-- Ids are in balance, and all that came of a ticket came of a request that was made for it. -/
structure Sound (w : Ledger σ γ υ) : Prop where
  balanced : w.node.requests.Balanced
  tickets : ∀ ticket, waiting w.node.requests ticket + w.node.answered ticket +
    w.givenUp.count ticket ≤ w.asked.count ticket

theorem sound_start (net : Network) : Sound (start net : Ledger σ γ υ) :=
  ⟨Requests.balanced_empty, fun _ => Nat.le_refl 0⟩

/-! ## What waits for a ticket -/

theorem waiting_of_sublist {r r' : Requests} (h : r'.entries.Sublist r.entries) (ticket : Ticket) :
    waiting r' ticket ≤ waiting r ticket :=
  (h.map _).count_le ticket

/-- Ending the request of an id ends one that waited for its ticket. -/
theorem waiting_drop {r : Requests} (site : Site) {e : Pending} (he : e ∈ r.entries)
    (ticket : Ticket) :
    waiting (Requests.drop (r, site) e.id).1 ticket + (if e.ticket = ticket then 1 else 0) ≤
      waiting r ticket := by
  have hsplit := (List.filter_append_perm (·.id != e.id) r.entries).map (·.ticket)
  have hcount := hsplit.count_eq ticket
  rw [List.map_append, List.count_append] at hcount
  unfold waiting
  rw [Requests.entries_drop, ← hcount]
  apply Nat.add_le_add_left
  by_cases hticket : e.ticket = ticket
  · rw [if_pos hticket, ← hticket]
    apply List.count_pos_iff.mpr
    apply List.mem_map_of_mem
    exact List.mem_filter.mpr ⟨he, by simp⟩
  · rw [if_neg hticket]
    exact Nat.zero_le _

/-- An answer ends the request that waits under its id. -/
theorem waiting_answer (r : Requests) (site : Site) (id : ResponseId) (ticket : Ticket) :
    waiting (Requests.drop (r, site) id).1 ticket +
      ((r.get? id).map (·.ticket)).toList.count ticket ≤ waiting r ticket := by
  cases hget : r.get? id with
  | none =>
    apply waiting_of_sublist
    rw [Requests.entries_drop]
    exact List.filter_sublist
  | some e =>
    obtain ⟨he, rfl⟩ := Requests.mem_of_get? hget
    have hdrop := waiting_drop site he ticket
    rw [Option.map_some, Option.toList_some, List.count_singleton]
    simpa only [beq_iff_eq] using hdrop

theorem waiting_forget (r : Requests) (site : Site) (ticket : Ticket) :
    waiting (r.forget site).1 ticket ≤ waiting r ticket := by
  apply waiting_of_sublist
  unfold Requests.forget
  generalize r.lost site.net = ids
  induction ids generalizing r site with
  | nil => exact .refl _
  | cons id ids ih =>
    refine (ih _ _).trans ?_
    show (Requests.drop (r, site) id).1.entries.Sublist r.entries
    rw [Requests.entries_drop]
    exact List.filter_sublist

theorem waiting_wait (r : Requests) (id : ResponseId) (peer : Address) (own ticket : Ticket) :
    waiting (r.wait id peer own) ticket ≤ waiting r ticket + if own = ticket then 1 else 0 := by
  unfold waiting Requests.wait
  rw [List.map_append, List.count_append, List.map_singleton, List.count_singleton]
  simp only [beq_iff_eq]
  apply Nat.add_le_add_right
  exact (List.filter_sublist.map _).count_le ticket

/-! ## Operations keep the balance -/

variable {s : Services σ γ υ} {w w' : Ledger σ γ υ}

theorem Sound.request (h : w.Sound) (peer : Address) (m : Message) (own : Ticket)
    {pick : Option ResponseId} (picks : w.node.requests.Picks w.node.site pick) :
    Sound { w with
      node := (w.node.requestUnder peer m own pick).1
      asked := own :: w.asked } := by
  have hforget := (h.balanced.forget w.node.site).1
  unfold Node.requestUnder
  rcases h.balanced.sendUnder_cases picks peer m own with ⟨e, hsend⟩ | ⟨id, net, hfree, hsend⟩
  · rw [hsend]
    refine ⟨hforget, ?_⟩
    intro ticket
    have hlaw := h.tickets ticket
    have hwaiting := waiting_forget w.node.requests w.node.site ticket
    rw [List.count_cons]
    show waiting (w.node.requests.forget w.node.site).1 ticket + w.node.answered ticket +
      w.givenUp.count ticket ≤ _
    omega
  · rw [hsend]
    refine ⟨hforget.wait hfree peer own, ?_⟩
    intro ticket
    have hlaw := h.tickets ticket
    have hwaiting := waiting_forget w.node.requests w.node.site ticket
    have hnew := waiting_wait (w.node.requests.forget w.node.site).1 id peer own ticket
    rw [List.count_cons]
    simp only [beq_iff_eq]
    show waiting ((w.node.requests.forget w.node.site).1.wait id peer own) ticket +
      w.node.answered ticket + w.givenUp.count ticket ≤ _
    omega

theorem Sound.cancel (h : w.Sound) {e : Pending} (he : e ∈ w.node.requests.entries) :
    Sound { w with
      node := { w.node with
        requests := (Requests.drop (w.node.requests, w.node.site) e.id).1
        site := (Requests.drop (w.node.requests, w.node.site) e.id).2 }
      givenUp := e.ticket :: w.givenUp } := by
  refine ⟨h.balanced.drop w.node.site e.id, ?_⟩
  intro ticket
  have hlaw := h.tickets ticket
  have hwaiting := waiting_drop w.node.site he ticket
  rw [List.count_cons]
  simp only [beq_iff_eq]
  show waiting (Requests.drop (w.node.requests, w.node.site) e.id).1 ticket +
    w.node.answered ticket + _ ≤ _
  omega

theorem Sound.receive (h : w.Sound) (sender : Address) (m : Message) :
    Sound { w with node := (w.node.handle s sender m).1 } := by
  rcases w.node.handle_cases s sender m with ⟨hrequests, hanswers⟩ | ⟨id, -, hanswer⟩
  · refine ⟨?_, ?_⟩
    · show (w.node.handle s sender m).1.requests.Balanced
      rw [hrequests]
      exact h.balanced
    · intro ticket
      show waiting (w.node.handle s sender m).1.requests ticket +
        ((w.node.handle s sender m).1.answers.map (·.1)).count ticket + _ ≤ _
      rw [hrequests, hanswers]
      exact h.tickets ticket
  · have hdrop : (w.node.handle s sender m).1.requests =
        (Requests.drop (w.node.requests, w.node.site) id).1 := by
      rw [hanswer]
      exact w.node.requests.answer_fst w.node.site id
    have hanswers := (w.node.answer_eq id m).2
    rw [← hanswer] at hanswers
    refine ⟨?_, ?_⟩
    · show (w.node.handle s sender m).1.requests.Balanced
      rw [hdrop]
      exact h.balanced.drop w.node.site id
    · intro ticket
      have hlaw := h.tickets ticket
      show waiting (w.node.handle s sender m).1.requests ticket +
        ((w.node.handle s sender m).1.answers.map (·.1)).count ticket + w.givenUp.count ticket ≤
          w.asked.count ticket
      have hwaiting := waiting_answer w.node.requests w.node.site id ticket
      rw [hdrop, hanswers, List.map_append, List.count_append]
      have hnew : (((w.node.requests.get? id).map fun p => (p.ticket, m)).toList.map (·.1)) =
          ((w.node.requests.get? id).map (·.ticket)).toList := by
        cases w.node.requests.get? id <;> rfl
      rw [hnew]
      show _ + (w.node.answered ticket + _) + _ ≤ _
      omega

/-- One operation keeps ids in balance. -/
theorem Sound.step (h : w.Sound) (hs : Step s w w') : w'.Sound := by
  cases hs with
  | request peer m ticket picks => exact h.request peer m ticket picks
  | cancel waits => exact h.cancel waits
  | receive sender m => exact h.receive sender m
  | @environment node requests answers =>
    refine ⟨?_, ?_⟩
    · show node.requests.Balanced
      rw [requests]
      exact h.balanced
    · intro ticket
      show waiting node.requests ticket + (node.answers.map (·.1)).count ticket + _ ≤ _
      rw [requests, answers]
      exact h.tickets ticket

/-- Any sequence of operations keeps ids in balance. -/
theorem Sound.run {w₀ : Ledger σ γ υ} (h : w₀.Sound) (run : Relation.ReflTransGen (Step s) w₀ w) :
    w.Sound := by
  induction run with
  | refl => exact h
  | tail _ hs ih => exact ih.step hs

/-- After any operations the ids that are taken are those of the requests that wait, each of one, so
that no id fails to be freed. A request that cannot be sent leaves behind what ending the requests
to peers that are gone has left, and one that is sent waits besides under an id of its own. A ticket
of one request is fulfilled at most once, and never if it was given up. -/
theorem ids_are_keys {net : Network} (run : Relation.ReflTransGen (Step s) (start net) w) :
    let n := w.node
    let r := n.requests
    r.taken.Nodup ∧ (r.entries.map (·.id)).Perm r.taken ∧
      (∀ id p rest notice, r.remove id = some (p, rest, notice) → notice = none) ∧
      (∀ peer m ticket pick, r.Picks n.site pick →
        let kept := (r.forget n.site).1
        let sent := n.requestUnder peer m ticket pick
        sent.1.site.journal = n.site.journal ∧
          (∀ e, sent.2 = .error e → sent.1.requests = kept) ∧
          (sent.2 = .ok () → ∃ id, (∀ e ∈ kept.entries, e.id ≠ id) ∧
            sent.1.requests = ⟨id :: kept.taken, kept.entries ++ [⟨id, peer, ticket⟩]⟩)) ∧
      ∀ ticket, w.asked.count ticket ≤ 1 →
        n.answered ticket ≤ 1 ∧ (ticket ∈ w.givenUp → n.answered ticket = 0) := by
  intro n r
  have hsound : w.Sound := (sound_start net).run run
  have hbalanced : r.Balanced := hsound.balanced
  refine ⟨hbalanced.nodup, hbalanced.keys, ?_, ?_, ?_⟩
  · intro id p rest notice hremove
    rw [hbalanced.remove_eq] at hremove
    obtain ⟨e, -, heq⟩ := Option.map_eq_some_iff.mp hremove
    cases heq
    rfl
  · intro peer m ticket pick picks
    exact Node.requestUnder_spec hbalanced picks peer m ticket
  · intro ticket hasked
    have hlaw := hsound.tickets ticket
    refine ⟨?_, ?_⟩
    · show w.node.answered ticket ≤ 1
      omega
    · intro hgivenUp
      have hcount : 0 < w.givenUp.count ticket := List.count_pos_iff.mpr hgivenUp
      show w.node.answered ticket = 0
      omega

open Exchange (friend befriended query quiet)

/-- A request is given up before its answer comes, one cannot carry an id, and the next one gets the
id of the first and is answered. -/
theorem exists_answered :
    ∃ w : Ledger Unit Unit Unit, Relation.ReflTransGen (Step quiet) (start befriended) w ∧
      w.asked = [2, 1, 0] ∧ w.givenUp = [0] ∧ w.node.answered 2 = 1 := by
  have run : Relation.ReflTransGen (Step quiet) (start befriended) _ :=
    .tail .refl (step_request quiet (start befriended) friend (.user (query "first" 1)) 0)
  have run := run.tail (step_request quiet _ friend .keepAlive 1)
  have run := run.tail (.cancel (e := ⟨1, friend, 0⟩) List.mem_cons_self)
  have run := run.tail (.receive friend (.reply ⟨1, "first", []⟩))
  have run := run.tail (step_request quiet _ friend (.user (query "second" 2)) 2)
  have run := run.tail (.receive friend (.reply ⟨1, "second", []⟩))
  exact ⟨_, run, rfl, rfl, by decide⟩

/-- The request that was given up is never answered, and one that cannot carry an id takes none. -/
theorem given_up_is_not_answered :
    ∃ w : Ledger Unit Unit Unit, Relation.ReflTransGen (Step quiet) (start befriended) w ∧
      w.asked = [2, 1, 0] ∧ w.givenUp = [0] ∧
      w.node.requests.taken.Nodup ∧
      (w.node.requests.entries.map (·.id)).Perm w.node.requests.taken ∧
      (∀ id p rest notice, w.node.requests.remove id = some (p, rest, notice) → notice = none) ∧
      (∀ e, (w.node.request friend .keepAlive 3).2 = .error e →
        (w.node.request friend .keepAlive 3).1.requests =
          (w.node.requests.forget w.node.site).1) ∧
      w.node.answered 2 = 1 ∧ w.node.answered 0 = 0 := by
  obtain ⟨w, run, hasked, hgivenUp, hanswered⟩ := exists_answered
  obtain ⟨hnodup, hkeys, hfreed, hrequest, htickets⟩ := ids_are_keys run
  have hsent := hrequest friend .keepAlive 3 _
    (w.node.requests.picks_freeId? w.node.site)
  rw [← w.node.request_eq] at hsent
  have honce : w.asked.count 0 ≤ 1 := by
    rw [hasked]
    decide
  have hmem : 0 ∈ w.givenUp := by
    rw [hgivenUp]
    exact List.mem_cons_self
  exact ⟨w, run, hasked, hgivenUp, hnodup, hkeys, hfreed, hsent.2.1, hanswered,
    (htickets 0 honce).2 hmem⟩

end Ledger

namespace Callers

variable {σ γ υ : Type} {s : Services σ γ υ} {w w' : Callers σ γ υ}

/-- A step of one of several callers keeps ids in balance, too. -/
theorem balanced_of_step {move : Move} (h : Step s w move w') (hw : w.node.requests.Balanced) :
    w'.node.requests.Balanced := by
  have heffect := effect_of_step h
  generalize w'.node.requests = r, w'.owner = owner at heffect ⊢
  cases heffect with
  | same h => exact hw
  | forget => exact (hw.forget w.node.site).1
  | reserve h =>
    obtain ⟨hfree, rfl⟩ := Requests.reserve_eq h
    exact hw.wait hfree _ _
  | drop h => exact hw.drop w.node.site _

/-- Ids are in balance between the steps of any number of callers. -/
theorem balanced_of_run {allowed : Callers σ γ υ → Move → Prop} {net : Network}
    (run : Run s allowed (start net) w) : w.node.requests.Balanced := by
  induction run with
  | refl => exact Requests.balanced_empty
  | tail _ h ih =>
    obtain ⟨move, -, hstep⟩ := h
    exact balanced_of_step hstep ih

end Callers

end Parley
