import Mathlib.Algebra.BigOperators.Group.Multiset.Basic
import Mathlib.Data.Finset.Card
import Mathlib.Logic.Function.Basic
import Parley.Proofs.Node.Reaction

/-!
# Messages die out

A server and its clients, none of which does anything on its own. What is on its way between them is
delivered in any order, connections are lost at any time, and all of it comes to an end.

- `Star`: the nodes, and the messages under way. `Star.Step` is the delivery of one, or the loss of a
  connection at one of its ends.
- `Star.Sound`: the nodes have the roles they should have and no services but chat and sync, and the
  server is connected to its clients only.
- `Transit.most`: how many messages a delivery may cause. None of those causes others
  (`Star.Sound.caused`).
- `Star.Sound.step`, `Star.Sound.run`: a step keeps a star sound and uses up some of its budget, and so
  does a run.
- `Star.exchange_dies_out`: all of it together.
-/

namespace Parley

/-- A message on its way between the server and the client with an address. -/
inductive Transit
  | toServer (client : Address) (message : Message)
  | toClient (client : Address) (message : Message)
deriving DecidableEq

namespace Transit

def client : Transit → Address
  | toServer a _ | toClient a _ => a

def message : Transit → Message
  | toServer _ m | toClient _ m => m

/-- Whom the receiver takes for the sender: clients know the server under an address of their own. -/
def sender (host : Address → Address) : Transit → Address
  | toServer a _ => a
  | toClient a _ => host a

/-- The way of a message that the receiver sends. -/
def onward : Transit → Address × Message → Transit
  | toServer _ _, (a, m) => toClient a m
  | toClient a _, (_, m) => toServer a m

/-- The most messages that the delivery causes, where there are so many clients. -/
def most (clients : Nat) : Transit → Nat
  | toServer _ (.echo body) | toClient _ (.echo body) => if body.echoed then 0 else 1
  | toServer _ (.chat body) => if body.kind = .message then clients else 0
  | _ => 0

end Transit

/-- A server, its clients by the addresses that it knows them by, and what is on its way. -/
structure Star (σ γ υ : Type) where
  server : Node σ γ υ
  clients : Address → Node σ γ υ
  flight : Multiset Transit

/-- What happens in a star. -/
inductive Incident
  | delivered (t : Transit) (caused : List Transit)
  | lost (client : Address)

namespace Node

variable {σ γ υ : Type}

/-- A node with a role, without services but chat and sync, that has nothing to send. -/
structure Resting (role : Role) (n : Node σ γ υ) : Prop extends n.Simple where
  role : n.site.net.role = role
  queue : n.site.net.queue = []

/-- The node after its loop has taken the commands. -/
def flushed (n : Node σ γ υ) : Node σ γ υ :=
  { n with site := { n.site with net := { n.site.net with queue := [] } } }

/-- The node after the loss of one of its connections. -/
def without (n : Node σ γ υ) (a : Address) : Node σ γ υ :=
  { n with site := { n.site with net := n.site.net.disconnect a } }

theorem Resting.receive {role : Role} {n : Node σ γ υ} (h : n.Resting role)
    (s : Services σ γ υ) (l : Letter) :
    (Station.receive s n l).flushed.Resting role ∧
      (Station.receive s n l).flushed.site.net.table = n.site.net.table := by
  obtain ⟨⟨hgrid, husers⟩, -⟩ := Station.receive_keeps s h.toSimple l
  obtain ⟨out, -, commands, -, hnet⟩ := Station.receive_sends s h.toSimple l
  refine ⟨⟨⟨hgrid, husers⟩, ?_, rfl⟩, ?_⟩
  · show (Station.receive s n l).site.net.role = role
    rw [hnet]
    exact h.role
  · show (Station.receive s n l).site.net.table = _
    rw [hnet]

theorem Resting.without {role : Role} {n : Node σ γ υ} (h : n.Resting role) (a : Address) :
    (n.without a).Resting role :=
  ⟨⟨h.grid, h.users⟩, h.role, h.queue⟩

end Node

namespace Star

variable {σ γ υ : Type}

/-- The node that a message comes to. -/
def receiver (w : Star σ γ υ) : Transit → Node σ γ υ
  | .toServer _ _ => w.server
  | .toClient a _ => w.clients a

/-- Another state of the node that a message comes to. -/
def update (w : Star σ γ υ) (t : Transit) (n : Node σ γ υ) : Star σ γ υ :=
  match t with
  | .toServer _ _ => { w with server := n }
  | .toClient a _ => { w with clients := Function.update w.clients a n }

/-- One thing that happens. -/
inductive Step (s : Services σ γ υ) (host : Address → Address) (peers : Finset Address) :
    Star σ γ υ → Incident → Star σ γ υ → Prop
  /-- A message is handled, and what the receiver sends gets on its way. -/
  | deliver {w : Star σ γ υ} {t : Transit} {rest : Multiset Transit} {n : Node σ γ υ}
      {out : List (Address × Message)} (hflight : w.flight = t ::ₘ rest)
      (hreceive : n = Station.receive s (w.receiver t) ⟨t.sender host, t.message⟩)
      (hout : (w.receiver t).site.net.Sends out n.site.net) :
      Step s host peers w (.delivered t (out.map t.onward))
        { w.update t n.flushed with flight := ↑(out.map t.onward) + rest }
  /-- The server loses a client. What was on its way between them may get lost. -/
  | serverLoses {w : Star σ γ υ} {a : Address} {kept : Multiset Transit}
      (hconnected : w.server.site.net.isConnected a = true) (hkept : kept ≤ w.flight)
      (hothers : ∀ t ∈ w.flight - kept, t.client = a) :
      Step s host peers w (.lost a) { w with server := w.server.without a, flight := kept }
  /-- A client loses the server. -/
  | clientLoses {w : Star σ γ υ} {a : Address} {kept : Multiset Transit} (ha : a ∈ peers)
      (hconnected : (w.clients a).site.net.isConnected (host a) = true) (hkept : kept ≤ w.flight)
      (hothers : ∀ t ∈ w.flight - kept, t.client = a) :
      Step s host peers w (.lost a)
        { w with
          clients := Function.update w.clients a ((w.clients a).without (host a))
          flight := kept }

/-- Any number of things happen. -/
inductive Run (s : Services σ γ υ) (host : Address → Address) (peers : Finset Address) :
    Star σ γ υ → List Incident → Star σ γ υ → Prop
  | refl (w : Star σ γ υ) : Run s host peers w [] w
  | head {w w' w'' : Star σ γ υ} {i : Incident} {is : List Incident}
      (hstep : Step s host peers w i w') (hrun : Run s host peers w' is w'') :
      Run s host peers w (i :: is) w''

/-! ## What keeps a star in order -/

/-- The nodes have their roles and nothing to send, and whatever connects them is between the server
and its clients. -/
structure Sound (peers : Finset Address) (w : Star σ γ υ) : Prop where
  server : w.server.Resting .server
  clients : ∀ a ∈ peers, (w.clients a).Resting .client
  rooms : w.server.chatOrDefault.Tidy
  known : ∀ a, w.server.site.net.isConnected a = true → a ∈ peers
  flight : ∀ t ∈ w.flight, t.client ∈ peers

variable {s : Services σ γ υ} {host : Address → Address} {peers : Finset Address} {w w' : Star σ γ υ}

theorem Sound.simple (h : w.Sound peers) {t : Transit} (ht : t.client ∈ peers) :
    (w.receiver t).Simple := by
  cases t with
  | toServer a m => exact h.server.toSimple
  | toClient a m => exact (h.clients a ht).toSimple

/-- Another client that rests in the place of one. -/
theorem Sound.update_clients (h : w.Sound peers) {n : Node σ γ υ} (hn : n.Resting .client)
    {a : Address} : ∀ b ∈ peers, (Function.update w.clients a n b).Resting .client := by
  intro b hb
  by_cases hba : b = a
  · rw [hba, Function.update_self]
    exact hn
  · rw [Function.update_of_ne hba]
    exact h.clients b hb

/-- Members of a room that have a connection are clients, and none of them comes twice. -/
theorem Sound.length_copies_le (h : w.Sound peers) (m : ChatMessage) :
    (Chat.copies m w.server.site.net (w.server.chatOrDefault.members m.room)).length ≤
      peers.card := by
  have hnodup := (h.rooms.nodup_members m.room).filter (w.server.site.net.isConnected ·)
  rw [Chat.copies, List.length_map, ← List.toFinset_card_of_nodup hnodup]
  refine Finset.card_le_card fun a ha => ?_
  exact h.known a (List.mem_filter.mp (List.mem_toFinset.mp ha)).2

/-- What a message may make its receiver send is no more than the most, travels between the server
and a client, and makes nobody send anything in turn. -/
theorem Sound.prompts (h : w.Sound peers) (host : Address → Address) {t : Transit}
    (ht : t.client ∈ peers) :
    ((w.receiver t).prompts (t.sender host) t.message).length ≤ t.most peers.card ∧
      ∀ p ∈ (w.receiver t).prompts (t.sender host) t.message,
        (t.onward p).client ∈ peers ∧ (t.onward p).most peers.card = 0 := by
  rcases (w.receiver t).prompts_cases (t.sender host) t.message with
    ⟨body, hm, hechoed, heq⟩ | ⟨body, hm, hkind, hrole, heq⟩ | heq
  · rw [heq]
    have hmost : t.most peers.card = 1 := by
      cases t <;> obtain rfl := hm <;> simp [Transit.most, hechoed]
    refine ⟨hmost.ge, fun p hp => ?_⟩
    obtain rfl := List.mem_singleton.mp hp
    cases t with
    | toServer a m => exact ⟨ht, rfl⟩
    | toClient a m => exact ⟨ht, rfl⟩
  · rw [heq]
    cases t with
    | toServer a m =>
      obtain rfl : m = .chat body := hm
      refine ⟨?_, fun p hp => ?_⟩
      · rw [Transit.most, if_pos hkind]
        exact h.length_copies_le body
      · obtain ⟨b, hb, rfl⟩ := List.mem_map.mp hp
        exact ⟨h.known b (List.mem_filter.mp hb).2, rfl⟩
    | toClient a m =>
      -- a client passes nothing on
      rw [receiver, (h.clients a ht).role] at hrole
      cases hrole
  · rw [heq]
    exact ⟨Nat.zero_le _, nofun⟩

/-- What a message makes its receiver send. -/
theorem Sound.caused (h : w.Sound peers) {t : Transit} (ht : t.client ∈ peers)
    {out : List (Address × Message)}
    (hout : (w.receiver t).site.net.Sends out
      (Station.receive s (w.receiver t) ⟨t.sender host, t.message⟩).site.net) :
    out.length ≤ t.most peers.card ∧
      ∀ p ∈ out, (t.onward p).client ∈ peers ∧ (t.onward p).most peers.card = 0 := by
  obtain ⟨out', hsub, hout'⟩ :=
    Station.receive_sends s (h.simple ht) ⟨t.sender host, t.message⟩
  obtain rfl := hout.unique hout'
  obtain ⟨hlength, hall⟩ := h.prompts host ht
  exact ⟨hsub.length_le.trans hlength, fun p hp => hall p (hsub.subset hp)⟩

/-! ## What is used up -/

/-- What the messages on their way are good for: each for itself and for those that it may cause. -/
def load (clients : Nat) (flight : Multiset Transit) : Nat :=
  (flight.map fun t => t.most clients + 1).sum

/-- The ends of connections that stand. -/
def ends (host : Address → Address) (peers : Finset Address) (w : Star σ γ υ) : Nat :=
  (peers.filter fun a => w.server.site.net.isConnected a).card +
    (peers.filter fun a => (w.clients a).site.net.isConnected (host a)).card

/-- All that can happen yet. -/
def budget (host : Address → Address) (peers : Finset Address) (w : Star σ γ υ) : Nat :=
  load peers.card w.flight + w.ends host peers

theorem load_le {clients : Nat} {kept flight : Multiset Transit} (h : kept ≤ flight) :
    load clients kept ≤ load clients flight := by
  obtain ⟨rest, rfl⟩ := Multiset.le_iff_exists_add.mp h
  simp only [load, Multiset.map_add, Multiset.sum_add]
  exact Nat.le_add_right _ _

theorem load_of_most_eq_zero {clients : Nat} {ts : List Transit} (h : ∀ t ∈ ts, t.most clients = 0) :
    load clients ↑ts = ts.length := by
  induction ts with
  | nil => rfl
  | cons t ts ih =>
    have hrest := ih fun t ht => h t (List.mem_cons_of_mem _ ht)
    simp only [load, Multiset.map_coe, Multiset.sum_coe, List.map_cons, List.sum_cons,
      List.length_cons] at hrest ⊢
    rw [hrest, h t List.mem_cons_self]
    omega

/-- A delivery uses up more than what it causes is good for. -/
theorem Sound.load_deliver (h : w.Sound peers) {t : Transit} {caused : List Transit}
    (hstep : Step s host peers w (.delivered t caused) w') :
    caused.length ≤ t.most peers.card ∧ (∀ c ∈ caused, c.most peers.card = 0) ∧
      load peers.card w'.flight < load peers.card w.flight := by
  cases hstep with
  | @deliver _ rest n out hflight hreceive hout =>
    have ht : t.client ∈ peers := h.flight t (hflight ▸ Multiset.mem_cons_self t rest)
    subst hreceive
    obtain ⟨hlength, hall⟩ := h.caused ht hout
    have hnone : ∀ c ∈ out.map t.onward, c.most peers.card = 0 := by
      intro c hc
      obtain ⟨p, hp, rfl⟩ := List.mem_map.mp hc
      exact (hall p hp).2
    refine ⟨(List.length_map _).trans_le hlength, hnone, ?_⟩
    have hcaused := load_of_most_eq_zero hnone
    rw [List.length_map] at hcaused
    rw [hflight]
    show load peers.card (↑(out.map t.onward) + rest) < _
    simp only [load, Multiset.map_add, Multiset.sum_add, Multiset.map_cons, Multiset.sum_cons]
      at hcaused ⊢
    rw [hcaused]
    omega


/-- A delivery neither makes nor ends a connection, and the nodes stay as they should be. -/
theorem Sound.deliver (h : w.Sound peers) {t : Transit} {caused : List Transit}
    (hstep : Step s host peers w (.delivered t caused) w') :
    w'.Sound peers ∧ w'.ends host peers = w.ends host peers := by
  cases hstep with
  | @deliver _ rest n out hflight hreceive hout =>
    have ht : t.client ∈ peers := h.flight t (hflight ▸ Multiset.mem_cons_self t rest)
    subst hreceive
    obtain ⟨-, hall⟩ := h.caused ht hout
    have hpeers : ∀ c ∈ (↑(out.map t.onward) + rest : Multiset Transit), c.client ∈ peers := by
      intro c hc
      rcases Multiset.mem_add.mp hc with hc | hc
      · obtain ⟨p, hp, rfl⟩ := List.mem_map.mp (Multiset.mem_coe.mp hc)
        exact (hall p hp).1
      · exact h.flight c (hflight ▸ Multiset.mem_cons_of_mem hc)
    cases t with
    | toServer a m =>
      obtain ⟨hrest, htable⟩ := h.server.receive s ⟨a, m⟩
      refine ⟨⟨hrest, h.clients, ?_, ?_, hpeers⟩, ?_⟩
      · exact (Station.receive_keeps s h.server.toSimple ⟨a, m⟩).2 h.rooms
      · intro b hb
        refine h.known b ?_
        rwa [Network.isConnected, ← htable]
      · simp only [ends, Network.isConnected, ← htable]
        rfl
    | toClient a m =>
      obtain ⟨hrest, htable⟩ := (h.clients a ht).receive s ⟨host a, m⟩
      refine ⟨⟨h.server, h.update_clients hrest, h.rooms, h.known, hpeers⟩, ?_⟩
      · have hsame (b : Address) : (Function.update w.clients a
            (Station.receive s (w.clients a) ⟨host a, m⟩).flushed b).site.net.table =
              (w.clients b).site.net.table := by
          by_cases hba : b = a
          · rw [hba, Function.update_self, htable]
          · rw [Function.update_of_ne hba]
        simp only [ends, Network.isConnected, ← hsame]
        rfl

theorem card_filter_lt {p p' : Address → Bool} {a : Address} (hp : ∀ b, p' b = true → p b = true)
    (ha : a ∈ peers) (hpa : p a = true) (hpa' : ¬ p' a = true) :
    (peers.filter (p' ·)).card < (peers.filter (p ·)).card := by
  refine Finset.card_lt_card ((Finset.ssubset_iff_of_subset ?_).mpr ⟨a, ?_, ?_⟩)
  · exact Finset.monotone_filter_right peers fun b _ => hp b
  · exact Finset.mem_filter.mpr ⟨ha, hpa⟩
  · exact fun hmem => hpa' (Finset.mem_filter.mp hmem).2

/-- A loss ends a connection at one of its ends, and brings nothing on its way. -/
theorem Sound.lose (h : w.Sound peers) {a : Address} (hstep : Step s host peers w (.lost a) w') :
    w'.Sound peers ∧ load peers.card w'.flight ≤ load peers.card w.flight ∧
      w'.ends host peers < w.ends host peers := by
  cases hstep with
  | serverLoses hconnected hkept hothers =>
    have herase (b : Address) : (w.server.without a).site.net.isConnected b = true ↔
        w.server.site.net.isConnected b = true ∧ b ≠ a :=
      ConnectionTable.contains_erase_iff _ a b
    refine ⟨⟨h.server.without a, h.clients, h.rooms, ?_, ?_⟩, load_le hkept, ?_⟩
    · exact fun b hb => h.known b ((herase b).mp hb).1
    · exact fun t ht => h.flight t (Multiset.mem_of_le hkept ht)
    · refine Nat.add_lt_add_right ?_ _
      refine card_filter_lt (fun b hb => ((herase b).mp hb).1) (h.known a hconnected) hconnected ?_
      exact fun hgone => ((herase a).mp hgone).2 rfl
  | clientLoses ha hconnected hkept hothers =>
    have herase (b : Address) : (Function.update w.clients a ((w.clients a).without (host a))
        b).site.net.isConnected (host b) = true ↔
          (w.clients b).site.net.isConnected (host b) = true ∧ b ≠ a := by
      by_cases hba : b = a
      · subst hba
        rw [Function.update_self]
        refine (ConnectionTable.contains_erase_iff _ (host b) (host b)).trans ?_
        simp
      · rw [Function.update_of_ne hba]
        exact (and_iff_left hba).symm
    refine ⟨⟨h.server, ?_, h.rooms, h.known, ?_⟩, load_le hkept, ?_⟩
    · exact h.update_clients ((h.clients a ha).without _)
    · exact fun t ht => h.flight t (Multiset.mem_of_le hkept ht)
    · refine Nat.add_lt_add_left ?_ _
      refine card_filter_lt (fun b hb => ((herase b).mp hb).1) ha hconnected ?_
      exact fun hgone => ((herase a).mp hgone).2 rfl

/-- Every message on its way can be delivered. -/
theorem Sound.exists_deliver (h : w.Sound peers) (s : Services σ γ υ) (host : Address → Address)
    {t : Transit} (ht : t ∈ w.flight) : ∃ caused w', Step s host peers w (.delivered t caused) w' := by
  obtain ⟨rest, hflight⟩ := Multiset.exists_cons_of_mem ht
  obtain ⟨out, -, hout⟩ :=
    Station.receive_sends s (h.simple (h.flight t ht)) ⟨t.sender host, t.message⟩
  exact ⟨_, _, .deliver hflight rfl hout⟩

/-- Whatever happens uses up some of the budget. -/
theorem Sound.step (h : w.Sound peers) {i : Incident} (hstep : Step s host peers w i w') :
    w'.Sound peers ∧ w'.budget host peers < w.budget host peers := by
  cases i with
  | delivered t caused =>
    obtain ⟨-, -, hload⟩ := h.load_deliver hstep
    obtain ⟨hsound, hends⟩ := h.deliver hstep
    exact ⟨hsound, by unfold budget; omega⟩
  | lost a =>
    obtain ⟨hsound, hload, hends⟩ := h.lose hstep
    exact ⟨hsound, by unfold budget; omega⟩

theorem Sound.run (h : w.Sound peers) {is : List Incident} (hrun : Run s host peers w is w') :
    w'.Sound peers ∧ is.length + w'.budget host peers ≤ w.budget host peers := by
  induction hrun with
  | refl w => exact ⟨h, by simp⟩
  | head hstep _ ih =>
    obtain ⟨hsound, hless⟩ := h.step hstep
    obtain ⟨hsound', hlength⟩ := ih hsound
    exact ⟨hsound', by rw [List.length_cons]; omega⟩

/-- In whatever order messages are delivered and connections lost, no more happens than the budget
allows. As long as messages are on their way, one can be delivered; each causes as many at most as it
may, which cause none, and lessens the load. -/
theorem exchange_dies_out (s : Services σ γ υ) (host : Address → Address) (h : w.Sound peers) :
    (∀ is w', Run s host peers w is w' →
      is.length + w'.budget host peers ≤ w.budget host peers ∧
      (∀ t ∈ w'.flight, ∃ caused w'', Step s host peers w' (.delivered t caused) w'') ∧
      (∀ t caused w'', Step s host peers w' (.delivered t caused) w'' →
        caused.length ≤ t.most peers.card ∧ (∀ c ∈ caused, c.most peers.card = 0) ∧
        load peers.card w''.flight < load peers.card w'.flight) ∧
      ∀ a w'', Step s host peers w' (.lost a) w'' →
        load peers.card w''.flight ≤ load peers.card w'.flight ∧
        w''.ends host peers < w'.ends host peers) ∧
    ¬ ∃ f : Nat → Star σ γ υ, f 0 = w ∧ ∀ k, ∃ i, Step s host peers (f k) i (f (k + 1)) := by
  refine ⟨fun is w' hrun => ?_, ?_⟩
  · obtain ⟨hsound, hlength⟩ := h.run hrun
    exact ⟨hlength, fun t ht => hsound.exists_deliver s host ht,
      fun t caused w'' hstep => hsound.load_deliver hstep, fun a w'' hstep => (hsound.lose hstep).2⟩
  · rintro ⟨f, rfl, hsteps⟩
    -- after `k` steps at least `k` of the budget is used up
    have hall (k : Nat) : (f k).Sound peers ∧
        k + (f k).budget host peers ≤ (f 0).budget host peers := by
      induction k with
      | zero => exact ⟨h, by omega⟩
      | succ k ih =>
        obtain ⟨i, hstep⟩ := hsteps k
        obtain ⟨hsound, hless⟩ := ih.1.step hstep
        exact ⟨hsound, by omega⟩
    have hover := (hall ((f 0).budget host peers + 1)).2
    omega

/-! ### A line and an echo -/

def talker : Address :=
  .ipv4 10 0 0 1 1

def neighbour : Address :=
  .ipv4 10 0 0 2 2

def seat : Address :=
  .ipv4 10 8 8 8 8

/-- A server with two clients in one room. One has said something, the other wants an echo. -/
def parlour : Star Unit Unit Unit where
  server :=
    { Node.new (((Network.new .server .default seat none).connect talker).connect neighbour) with
      chat := some ((Rooms.empty.register "hall" talker).register "hall" neighbour) }
  clients a := .new (.new .client .default a (some seat))
  flight :=
    {.toServer talker (.chat (.message "hello" "hall")), .toServer neighbour (.echo (.new [7]))}

theorem sound_parlour : parlour.Sound {talker, neighbour} where
  server := ⟨⟨rfl, rfl⟩, rfl, rfl⟩
  clients _ _ := ⟨⟨rfl, rfl⟩, rfl, rfl⟩
  rooms := (Rooms.tidy_empty.register "hall" talker).register "hall" neighbour
  known a ha := by
    obtain ⟨i, hi, rfl⟩ := (ConnectionTable.contains_iff _ a).mp ha
    revert i
    decide
  flight := by decide

/-- The line comes to both, the echo goes back, and four ends of connections can be lost. -/
theorem parlour_falls_silent : parlour.Sound {talker, neighbour} ∧
    ∀ (s : Services Unit Unit Unit) is w,
      Run s (fun _ => seat) {talker, neighbour} parlour is w → is.length ≤ 9 := by
  refine ⟨sound_parlour, fun s is w hrun => ?_⟩
  have hbudget : parlour.budget (fun _ => seat) {talker, neighbour} = 9 := by decide
  have hlength := ((exchange_dies_out s (fun _ => seat) sound_parlour).1 is w hrun).1
  omega

end Star

end Parley
