import Mathlib.Data.List.Forall2
import Parley.Proofs.Chat.Rooms
import Parley.Proofs.Network.Encode
import Parley.Station

/-!
# What a message makes a node send

A node that has neither a grid nor a user service sends something in two cases only: an echo that it
was sent goes back, and a server passes a line of chat on to the members of the room.

- `Network.encode_inj`: the bytes of a message are those of no other.
- `Network.Sends`: the commands that were queued are those to send some messages, which
  `Network.Sends.unique` reads off them.
- `Node.prompts`: what a message may make a node send. `Station.receive_sends` says that a node sends
  nothing else.
-/

namespace Parley

namespace Network

/-- The bytes of a message are those of no other. -/
theorem encode_inj {config : NetworkConfig} {m m' : Message} {bytes : Bytes}
    (h : encode config m = .ok bytes) (h' : encode config m' = .ok bytes) : m = m' := by
  obtain ⟨frame, hframe, rfl, hlimit, hlength⟩ := encode_ok h
  obtain ⟨frame', hframe', hbytes, hlimit', hlength'⟩ := encode_ok h'
  obtain ⟨payload, hp, -⟩ := pack_of_encode h
  obtain ⟨payload', hp', -⟩ := pack_of_encode h'
  obtain rfl : frame = frame' := by
    have hdrain := FrameDecoder.drain_toBytes hlimit hlength
    rw [hbytes, FrameDecoder.drain_toBytes hlimit' hlength'] at hdrain
    simpa using (congrArg Prod.fst hdrain).symm
  -- read with a limit that is large enough for both, the frame gives both messages
  have hread := Message.ofFrame_toFrame hframe hp hlength (max payload.length payload'.length)
  have hread' := Message.ofFrame_toFrame hframe' hp' hlength (max payload.length payload'.length)
  rw [if_neg (by omega)] at hread hread'
  exact Except.ok.inj (hread.symm.trans hread')

/-- The command to send a message to an address. -/
def Carries (config : NetworkConfig) (p : Address × Message) (c : Command) : Prop :=
  ∃ bytes, encode config p.2 = .ok bytes ∧ c = .send p.1 bytes

/-- From `net` to `net'` some messages were sent, and nothing else has changed. -/
def Sends (net : Network) (out : List (Address × Message)) (net' : Network) : Prop :=
  ∃ commands, List.Forall₂ (Carries net.config) out commands ∧
    net' = { net with queue := net.queue ++ commands }

namespace Sends

variable {net net' net'' : Network} {out out' : List (Address × Message)}

theorem refl (net : Network) : Sends net [] net :=
  ⟨[], .nil, by rw [List.append_nil]⟩

theorem of_send {a : Address} {m : Message} (h : net.send a m = .ok net') :
    Sends net [(a, m)] net' := by
  obtain ⟨bytes, hencode, rfl⟩ := send_ok h
  exact ⟨[.send a bytes], .cons ⟨bytes, hencode, rfl⟩ .nil, rfl⟩

theorem trans (h : Sends net out net') (h' : Sends net' out' net'') :
    Sends net (out ++ out') net'' := by
  obtain ⟨commands, hcommands, rfl⟩ := h
  obtain ⟨commands', hcommands', rfl⟩ := h'
  exact ⟨commands ++ commands', List.rel_append hcommands hcommands', by rw [List.append_assoc]⟩

theorem table (h : Sends net out net') : net'.table = net.table := by
  obtain ⟨commands, -, rfl⟩ := h
  rfl

/-- The commands tell which messages were sent. -/
theorem unique (h : Sends net out net') (h' : Sends net out' net') : out = out' := by
  obtain ⟨commands, hcommands, rfl⟩ := h
  obtain ⟨commands', hcommands', heq⟩ := h'
  obtain rfl : commands = commands' := List.append_cancel_left (congrArg Network.queue heq)
  clear heq
  induction hcommands generalizing out' with
  | nil =>
    cases hcommands'
    rfl
  | @cons p c ps cs hp _ ih =>
    cases hcommands' with
    | @cons p' _ ps' _ hp' hps' =>
      obtain ⟨bytes, hencode, rfl⟩ := hp
      obtain ⟨bytes', hencode', hsame⟩ := hp'
      obtain ⟨haddress, rfl⟩ := Command.send.inj hsame
      rw [ih hps', Prod.ext haddress (encode_inj hencode hencode')]

end Sends

end Network

/-! ## The services -/

open Network (Sends)

namespace Requests

theorem net_drop (r : Requests) (site : Site) (id : ResponseId) :
    (drop (r, site) id).2.net = site.net := by
  unfold drop
  split <;> rfl

theorem net_answer (r : Requests) (site : Site) (id : ResponseId) :
    (r.answer site id).2.1.net = site.net := by
  unfold answer
  cases r.get? id with
  | none => rfl
  | some p => exact net_drop r site id

end Requests

namespace Chat

/-- What passing a line on means. -/
def copies (m : ChatMessage) (net : Network) (members : List Address) : List (Address × Message) :=
  (members.filter (net.isConnected ·)).map fun a => (a, .chat m)

/-- Queueing something does not change who else gets a copy. -/
theorem copies_cons {m : ChatMessage} {net net' : Network} {out : List (Address × Message)}
    (h : Sends net out net') (a : Address) (members : List Address) :
    copies m net (a :: members) = copies m net [a] ++ copies m net' members := by
  simp only [copies, Network.isConnected, h.table, ← List.map_append, ← List.filter_append,
    List.singleton_append]

/-- A member gets a line only if it has a connection. -/
theorem forwardTo_sends (m : ChatMessage) (site : Site) (rooms : Rooms) (a : Address) :
    ∃ out, out.Sublist (copies m site.net [a]) ∧
      Sends site.net out (forwardTo m (site, rooms) a).1.net := by
  cases hsend : site.net.send a (.chat m) with
  | ok net =>
    refine ⟨[(a, .chat m)], ?_, ?_⟩
    · simp [copies, Network.isConnected_of_send hsend]
    · simp only [forwardTo, hsend]
      exact Sends.of_send hsend
  | error e =>
    refine ⟨[], List.nil_sublist _, ?_⟩
    simp only [forwardTo, hsend]
    split <;> exact Sends.refl _

/-- A line goes to those members that have a connection, as far as the network takes it. -/
theorem forward_sends (m : ChatMessage) (site : Site) (rooms : Rooms) :
    ∃ out, out.Sublist (copies m site.net (rooms.members m.room)) ∧
      Sends site.net out (forward m site rooms).1.net := by
  unfold forward
  generalize rooms.members m.room = members
  induction members generalizing site rooms with
  | nil => exact ⟨[], List.Sublist.refl _, Sends.refl _⟩
  | cons a members ih =>
    obtain ⟨first, hfirst, hsends⟩ := forwardTo_sends m site rooms a
    obtain ⟨rest, hrest, hsends'⟩ :=
      ih (forwardTo m (site, rooms) a).1 (forwardTo m (site, rooms) a).2
    rw [copies_cons hsends, List.foldl_cons]
    exact ⟨first ++ rest, hfirst.append hrest, hsends.trans hsends'⟩

end Chat

/-! ## The node -/

namespace Node

variable {σ γ υ : Type}

/-- A node has no services but chat and sync. -/
structure Simple (n : Node σ γ υ) : Prop where
  grid : n.grid = none
  users : n.users = []

/-- What a message may make a node send. -/
def prompts (n : Node σ γ υ) (sender : Address) : Message → List (Address × Message)
  | .echo body => if body.echoed then [] else [(sender, .echo body.received)]
  | .chat body =>
    if n.site.net.role = .server ∧ body.kind = .message then
      Chat.copies body n.site.net (n.chatOrDefault.members body.room)
    else []
  | _ => []

theorem prompts_cases (n : Node σ γ υ) (sender : Address) (m : Message) :
    (∃ body, m = .echo body ∧ body.echoed = false ∧
      n.prompts sender m = [(sender, .echo body.received)]) ∨
    (∃ body, m = .chat body ∧ body.kind = .message ∧ n.site.net.role = .server ∧
      n.prompts sender m = Chat.copies body n.site.net (n.chatOrDefault.members body.room)) ∨
    n.prompts sender m = [] := by
  cases m with
  | echo body =>
    cases hechoed : body.echoed with
    | false => exact .inl ⟨body, rfl, hechoed, by simp [prompts, hechoed]⟩
    | true => exact .inr (.inr (by simp [prompts, hechoed]))
  | chat body =>
    by_cases h : n.site.net.role = .server ∧ body.kind = .message
    · exact .inr (.inl ⟨body, rfl, h.2, h.1, if_pos h⟩)
    · exact .inr (.inr (if_neg h))
  | _ => exact .inr (.inr rfl)

theorem handle_sends (s : Services σ γ υ) (n : Node σ γ υ) (hn : n.Simple) (sender : Address)
    (m : Message) : ∃ out, out.Sublist (n.prompts sender m) ∧
      Sends n.site.net out (n.handle s sender m).1.site.net := by
  have hsilent {n' : Node σ γ υ} (hnet : n'.site.net = n.site.net) :
      ∃ out, out.Sublist (n.prompts sender m) ∧ Sends n.site.net out n'.site.net :=
    ⟨[], List.nil_sublist _, hnet ▸ Sends.refl _⟩
  cases m with
  | keepAlive => exact hsilent rfl
  | reply body => exact hsilent (n.requests.net_answer n.site body.responseId)
  | echo body =>
    simp only [handle, handleEcho]
    by_cases hechoed : body.echoed = true
    · rw [if_pos hechoed]
      cases body.responseId with
      | none => exact hsilent rfl
      | some id => exact hsilent (n.requests.net_answer n.site id)
    · rw [if_neg hechoed]
      cases hsend : n.site.net.send sender (.echo body.received) with
      | error e => exact hsilent rfl
      | ok net =>
        refine ⟨_, ?_, Sends.of_send hsend⟩
        rw [prompts, if_neg hechoed]
  | chat body =>
    simp only [handle, Chat.handle, Chat.handleWith, Chat.passOn]
    cases hkind : body.kind with
    | register => exact hsilent rfl
    | unregister => exact hsilent rfl
    | message =>
      by_cases hrole : n.site.net.role = .server
      · simp only [hrole, if_true, prompts, hkind, and_self]
        exact Chat.forward_sends body n.site n.chatOrDefault
      · rw [if_neg hrole]
        exact hsilent rfl
  | sync body =>
    simp only [handle]
    split <;> exact hsilent rfl
  | grid body =>
    simp only [handle, hn.grid]
    exact hsilent rfl
  | user body =>
    simp only [handle, user?, hn.users]
    exact hsilent rfl

/-- A message brings no service into being but chat and sync, and keeps tidy rooms tidy. -/
theorem handle_keeps (s : Services σ γ υ) (n : Node σ γ υ) (hn : n.Simple) (sender : Address)
    (m : Message) : (n.handle s sender m).1.Simple ∧
      (n.chatOrDefault.Tidy → (n.handle s sender m).1.chatOrDefault.Tidy) := by
  have hsame : n.Simple ∧ (n.chatOrDefault.Tidy → n.chatOrDefault.Tidy) := ⟨hn, id⟩
  cases m with
  | keepAlive => exact hsame
  | reply body => exact ⟨⟨hn.grid, hn.users⟩, id⟩
  | echo body =>
    simp only [handle, handleEcho]
    split
    · split <;> exact ⟨⟨hn.grid, hn.users⟩, id⟩
    · split <;> exact ⟨⟨hn.grid, hn.users⟩, id⟩
  | chat body =>
    refine ⟨⟨hn.grid, hn.users⟩, fun htidy => ?_⟩
    show (Chat.handle n.site n.chatOrDefault sender (.chat body)).2.1.Tidy
    simp only [Chat.handle, Chat.handleWith, Chat.passOn]
    cases body.kind with
    | register => exact htidy.register body.room sender
    | unregister => exact htidy.unregister body.room sender
    | message =>
      by_cases hrole : n.site.net.role = .server
      · simp only [hrole, if_true, Chat.rooms_forward]
        exact htidy.sweep _ _
      · simp only [hrole, if_false]
        exact htidy
  | sync body =>
    simp only [handle]
    split <;> exact ⟨⟨hn.grid, hn.users⟩, id⟩
  | grid body =>
    simp only [handle, hn.grid]
    exact ⟨⟨rfl, hn.users⟩, id⟩
  | user body =>
    simp only [handle, user?, hn.users, List.lookup_nil]
    exact ⟨⟨hn.grid, rfl⟩, id⟩

end Node

namespace Station

variable {σ γ υ : Type}

/-- A failure is written down, which changes nothing else. -/
theorem receive_eq (s : Services σ γ υ) (n : Node σ γ υ) (l : Letter) :
    ∃ journal, receive s n l =
      { (n.handle s l.sender l.message).1 with
        site := ⟨(n.handle s l.sender l.message).1.site.net, journal⟩ } := by
  unfold receive
  obtain ⟨node, result⟩ := n.handle s l.sender l.message
  cases result with
  | error e => exact ⟨_, rfl⟩
  | ok => exact ⟨_, rfl⟩

/-- A node sends nothing but what a message may make it send. -/
theorem receive_sends (s : Services σ γ υ) {n : Node σ γ υ} (hn : n.Simple) (l : Letter) :
    ∃ out, out.Sublist (n.prompts l.sender l.message) ∧
      Sends n.site.net out (receive s n l).site.net := by
  obtain ⟨journal, heq⟩ := receive_eq s n l
  rw [heq]
  exact n.handle_sends s hn l.sender l.message

theorem receive_keeps (s : Services σ γ υ) {n : Node σ γ υ} (hn : n.Simple) (l : Letter) :
    (receive s n l).Simple ∧
      (n.chatOrDefault.Tidy → (receive s n l).chatOrDefault.Tidy) := by
  obtain ⟨journal, heq⟩ := receive_eq s n l
  obtain ⟨⟨hgrid, husers⟩, htidy⟩ := n.handle_keeps s hn l.sender l.message
  rw [heq]
  exact ⟨⟨hgrid, husers⟩, htidy⟩

end Station

end Parley
