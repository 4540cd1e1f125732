import Parley.Proofs.Chat.Membership
import Parley.Proofs.Node.Reaction

/-!
# Passing a line on

A server passes a line on to the members of its room one after the other, and its listener hears the
line after that. Those without a connection are swept out on the way; a member with a connection
stays, whether the network takes the line for it or not.

- `Network.Accepts`: when a network takes a message for somebody who is connected. `send_of_accepts`
  and `send_of_not_accepts` say that nothing else matters.
- `Chat.forward_accepted`, `Chat.forward_refused`: what passing a line on queues.
- `Chat.handleWith_line`: the listener, whatever it does, finds the line passed on, and has the last
  word.
- `Chat.line_reaches_connected`: the network, the rooms and the listener after a line.
-/

namespace Parley

namespace Network

/-- A network has not been shut down, its loop is there, and the frame of a message is within the
limit. -/
structure Accepts (net : Network) (m : Message) : Prop where
  running : net.running = true
  listening : net.listening = true
  fits : ∃ frame,
    m.toFrame net.config.features net.config.encoding net.config.compress = .ok frame ∧
    frame.payload.length ≤ payloadLimit net.config

variable {net : Network} {m : Message}

theorem encode_isOk_iff : (∃ bytes, encode net.config m = .ok bytes) ↔
    ∃ frame, m.toFrame net.config.features net.config.encoding net.config.compress = .ok frame ∧
      frame.payload.length ≤ payloadLimit net.config := by
  unfold encode
  cases m.toFrame net.config.features net.config.encoding net.config.compress with
  | error e => simp
  | ok frame =>
    by_cases hlimit : payloadLimit net.config < frame.payload.length
    · simp [hlimit]
    · simp [hlimit, Nat.not_lt.mp hlimit]

/-- What is accepted is sent to everybody who is connected. -/
theorem send_of_accepts (h : net.Accepts m) {a : Address} (ha : net.isConnected a = true) :
    ∃ net', net.send a m = .ok net' := by
  obtain ⟨bytes, hencode⟩ := encode_isOk_iff.mpr h.fits
  refine ⟨{ net with queue := net.queue ++ [.send a bytes] }, ?_⟩
  simp [send, command, h.running, h.listening, ha, hencode]

/-- What is not accepted is sent to nobody. -/
theorem send_of_not_accepts (h : ¬ net.Accepts m) (a : Address) : ∃ e, net.send a m = .error e := by
  cases hsend : net.send a m with
  | error e => exact ⟨e, rfl⟩
  | ok net' =>
    exfalso
    apply h
    obtain ⟨bytes, hencode, -⟩ := send_ok hsend
    have hfits := encode_isOk_iff.mp ⟨bytes, hencode⟩
    have hconnected := isConnected_of_send hsend
    cases hrunning : net.running with
    | false => simp [send, hrunning] at hsend
    | true =>
      cases hlistening : net.listening with
      | false => simp [send, command, hrunning, hlistening, hconnected, hencode] at hsend
      | true => exact ⟨hrunning, hlistening, hfits⟩

/-- Queueing does not change what is accepted. -/
theorem Sends.accepts {net' : Network} {out : List (Address × Message)} (h : Sends net out net') :
    net'.Accepts m ↔ net.Accepts m := by
  obtain ⟨commands, -, rfl⟩ := h
  constructor <;> intro h <;> exact ⟨h.running, h.listening, h.fits⟩

end Network

namespace Chat

open Network (Sends Accepts)

/-! ## What is queued -/

/-- A line that is accepted goes to every member with a connection, in their order. -/
theorem forward_accepted {m : ChatMessage} {site : Site} (h : site.net.Accepts (.chat m))
    (rooms : Rooms) :
    Sends site.net (copies m site.net (rooms.members m.room)) (forward m site rooms).1.net := by
  unfold forward
  generalize rooms.members m.room = members
  induction members generalizing site rooms with
  | nil => exact Sends.refl _
  | cons a members ih =>
    have hfirst : Sends site.net (copies m site.net [a]) (forwardTo m (site, rooms) a).1.net := by
      by_cases ha : site.net.isConnected a = true
      · obtain ⟨net', hsend⟩ := Network.send_of_accepts h ha
        simp only [copies, List.filter_singleton, ha, forwardTo, hsend]
        exact Sends.of_send hsend
      · obtain ⟨e, hsend⟩ : ∃ e, site.net.send a (.chat m) = .error e := by
          cases hsend : site.net.send a (.chat m) with
          | error e => exact ⟨e, rfl⟩
          | ok net' => exact absurd (Network.isConnected_of_send hsend) ha
        simp only [copies, List.filter_singleton, ha, forwardTo, hsend]
        exact Sends.refl _
    rw [copies_cons hfirst, List.foldl_cons]
    exact hfirst.trans (ih (hfirst.accepts.mpr h) _)

/-- A line that is not accepted goes to nobody. -/
theorem forward_refused {m : ChatMessage} {site : Site} (h : ¬ site.net.Accepts (.chat m))
    (rooms : Rooms) : (forward m site rooms).1.net = site.net := by
  unfold forward
  generalize rooms.members m.room = members
  induction members generalizing site rooms with
  | nil => rfl
  | cons a members ih =>
    have hfirst : (forwardTo m (site, rooms) a).1.net = site.net := by
      obtain ⟨e, hsend⟩ := Network.send_of_not_accepts h a
      simp only [forwardTo, hsend]
      split <;> rfl
    rw [List.foldl_cons, ← Prod.eta (forwardTo m (site, rooms) a), ih, hfirst]
    rw [hfirst]
    exact h

/-! ## What is heard -/

/-- The listener is called once with a line, with the network and the rooms as passing it on has left
them, and leaves them as it likes. -/
theorem handleWith_line {ρ : Type} (listener : Listener ρ) (site : Site) (rooms : Rooms) (memory : ρ)
    (sender : Address) (msg room : String) :
    handleWith listener site rooms memory sender (.chat (.message msg room)) =
      listener ⟨msg, room⟩ ((passOn (.message msg room) site rooms).1,
        (passOn (.message msg room) site rooms).2, memory) :=
  rfl

/-- Something that a chat does: a command is queued, or the listener is called. -/
inductive Deed
  | queued (c : Command)
  | heard (line : Heard)

def Deed.isQueued : Deed → Bool
  | queued _ => true
  | heard _ => false

/-- Adds the commands to a record that have been queued since. -/
def catchUp (queue : List Command) (deeds : List Deed) : List Deed :=
  deeds ++ (queue.drop (deeds.countP Deed.isQueued)).map .queued

/-- Keeps a record of the commands that are queued and of its own calls. -/
def keepRecord : Listener (List Deed) :=
  fun line (site, rooms, deeds) => (site, rooms, catchUp site.net.queue deeds ++ [.heard line])

/-- All that has been done when a message is handled, one after the other, beginning with the commands
that were queued before. -/
def record (site : Site) (rooms : Rooms) (sender : Address) (m : Message) : List Deed :=
  let (site', _, deeds) :=
    handleWith keepRecord site rooms (site.net.queue.map .queued) sender m
  catchUp site'.net.queue deeds

theorem countP_isQueued (queue : List Command) :
    (queue.map Deed.queued).countP Deed.isQueued = queue.length := by
  rw [List.countP_map]
  exact List.countP_eq_length.mpr fun c _ => rfl

/-- Commands that were queued behind others come behind them in the record. -/
theorem catchUp_append (queue commands : List Command) :
    catchUp (queue ++ commands) (queue.map .queued) = (queue ++ commands).map .queued := by
  rw [catchUp, countP_isQueued, List.drop_left, List.map_append]

/-- There is nothing to add to a record of all commands and of what was heard then. -/
theorem catchUp_heard (queue : List Command) (line : Heard) :
    catchUp queue (queue.map .queued ++ [.heard line]) = queue.map .queued ++ [.heard line] := by
  have hcount :
      (queue.map Deed.queued ++ [Deed.heard line]).countP Deed.isQueued = queue.length := by
    rw [List.countP_append, countP_isQueued]
    rfl
  rw [catchUp, hcount, List.drop_length, List.map_nil, List.append_nil]

/-- Passing a line on queues commands behind those that were there. -/
theorem exists_queued_passOn (line : ChatMessage) (site : Site) (rooms : Rooms) :
    ∃ commands, (passOn line site rooms).1.net.queue = site.net.queue ++ commands := by
  unfold passOn
  split
  · obtain ⟨commands, -, hnet⟩ | hnet : _ ∨ (forward line site rooms).1.net = site.net := by
      by_cases haccepts : site.net.Accepts (.chat line)
      · exact .inl (forward_accepted haccepts rooms)
      · exact .inr (forward_refused haccepts rooms)
    · exact ⟨commands, by rw [hnet]⟩
    · exact ⟨[], by rw [hnet, List.append_nil]⟩
  · exact ⟨[], (List.append_nil _).symm⟩

/-- What is queued for a line is queued before the listener is called, and nothing comes after
that. -/
theorem record_line (site : Site) (rooms : Rooms) (sender : Address) (msg room : String) :
    record site rooms sender (.chat (.message msg room)) =
      (passOn (.message msg room) site rooms).1.net.queue.map .queued ++ [.heard ⟨msg, room⟩] := by
  obtain ⟨commands, hqueue⟩ := exists_queued_passOn (.message msg room) site rooms
  rw [record, handleWith_line]
  simp only [keepRecord]
  rw [hqueue, catchUp_append, catchUp_heard]

/-- Handling a line works at every node whose rooms have come about by any calls. Any listener is
called with the line once and last, and finds the network and the rooms as they are afterwards if it
leaves them alone; in a record of all that is done its call stands behind all that is queued. A server
queues the line for the members of its room that have a connection, each of them once and in their
order, if the network accepts it, and nothing otherwise; either way those members are the members
afterwards, the room is gone if there are none, and no other room changes. A client queues nothing and
changes no room. -/
theorem line_reaches_connected {σ γ υ : Type} (services : Services σ γ υ) (n : Node σ γ υ)
    (calls : List Call) (sender : Address) (msg room : String) :
    let line := ChatMessage.message msg room
    let rooms := Rooms.empty.after calls
    let live := (rooms.members room).filter (n.site.net.isConnected ·)
    ∃ site' rooms',
      (∀ (ρ : Type) (listener : Listener ρ) (memory : ρ),
        handleWith listener n.site rooms memory sender (.chat line) =
          listener ⟨msg, room⟩ (site', rooms', memory)) ∧
      record n.site rooms sender (.chat line) =
        site'.net.queue.map .queued ++ [.heard ⟨msg, room⟩] ∧
      Node.handle services { n with chat := some rooms } sender (.chat line) =
        ({ n with site := site', chat := some rooms', heard := n.heard ++ [⟨msg, room⟩] }, .ok ()) ∧
      (n.site.net.role = .server →
        live.Nodup ∧
        (n.site.net.Accepts (.chat line) →
          Sends n.site.net (live.map fun a => (a, .chat line)) site'.net) ∧
        (¬ n.site.net.Accepts (.chat line) → site'.net = n.site.net) ∧
        rooms'.members room = live ∧ (rooms'.contains room = true ↔ live ≠ []) ∧
        ∀ other, other ≠ room → rooms'.entries.lookup other = rooms.entries.lookup other) ∧
      (n.site.net.role = .client → site' = n.site ∧ rooms' = rooms) := by
  intro line rooms live
  have htidy : rooms.Tidy := Rooms.tidy_empty.after calls
  refine ⟨(passOn line n.site rooms).1, (passOn line n.site rooms).2,
    fun ρ listener memory => handleWith_line listener n.site rooms memory sender msg room,
    record_line n.site rooms sender msg room, ?_, ?_, ?_⟩
  · have hheard := handleWith_line remember n.site rooms none sender msg room
    rw [Node.handle, Node.chatOrDefault, Option.getD_some, handle, hheard]
    rfl
  · intro hserver
    have hpass : passOn line n.site rooms = forward line n.site rooms := if_pos hserver
    have hmembers : (forward line n.site rooms).2.members room = live :=
      members_forward htidy line n.site
    have htidy' : (forward line n.site rooms).2.Tidy := by
      rw [rooms_forward]
      exact htidy.sweep _ _
    rw [hpass]
    refine ⟨(htidy.nodup_members room).filter _, fun h => forward_accepted h rooms,
      fun h => forward_refused h rooms, hmembers, ?_, ?_⟩
    · rw [htidy'.contains_iff, hmembers]
    · intro other hother
      rw [rooms_forward]
      exact rooms.lookup_sweep_of_ne _ hother
  · intro hclient
    have hnot : ¬ n.site.net.role = .server := by simp [hclient]
    have hpass : passOn line n.site rooms = (n.site, rooms) := if_neg hnot
    rw [hpass]
    exact ⟨rfl, rfl⟩

/-- Two in a room, of whom the first has lost its connection. -/
def lounge : List Call :=
  [.register "y" guest, .register "y" regular]

/-- The other one gets the line before the listener hears it, and is the only member then. -/
theorem regular_gets_line :
    hall.net.role = .server ∧ hall.net.Accepts (.chat (.message "hi" "y")) ∧
      (∃ bytes, Network.encode hall.net.config (.chat (.message "hi" "y")) = .ok bytes ∧
        record hall (Rooms.empty.after lounge) guest (.chat (.message "hi" "y")) =
          [.queued (.send regular bytes), .heard ⟨"hi", "y"⟩]) ∧
      ∀ services : Services Unit Unit Unit, ∃ site' rooms',
        Node.handle services { Node.new hall.net with chat := some (Rooms.empty.after lounge) } guest
            (.chat (.message "hi" "y")) =
          ({ Node.new hall.net with site := site', chat := some rooms', heard := [⟨"hi", "y"⟩] },
            .ok ()) ∧
        Sends hall.net [(regular, .chat (.message "hi" "y"))] site'.net ∧
        rooms'.members "y" = [regular] := by
  have haccepts : hall.net.Accepts (.chat (.message "hi" "y")) :=
    ⟨rfl, rfl, _, rfl, by decide⟩
  refine ⟨rfl, haccepts, ⟨_, rfl, rfl⟩, ?_⟩
  intro services
  obtain ⟨site', rooms', -, -, hhandle, hserver, -⟩ :=
    line_reaches_connected services (Node.new hall.net) lounge guest "hi" "y"
  obtain ⟨-, hsends, -, hmembers, -⟩ := hserver rfl
  exact ⟨site', rooms', hhandle, hsends haccepts, hmembers⟩

end Chat

end Parley
