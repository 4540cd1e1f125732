import Parley.Proofs.Network.Channel

/-!
# What holds at the two ends of a connection

- `Channel.Outbound`: at the sender, what was written and what has to be written are together what
  was queued. `Channel.Outbound.part`, `Channel.Outbound.takeCommand`,
  `Channel.Outbound.sendHeartbeats` and `Channel.Outbound.call` keep it.
- `Channel.Inbound`: at the receiver, what was dispatched and what waits in the decoder are together
  what has arrived. `Channel.Inbound.mono`, `Channel.Inbound.takeCommand` and `Channel.Inbound.read`
  keep it.
-/

namespace Parley

namespace Channel

/-! ## The end that sends -/

variable {dst src : Address} {own peer : NetworkConfig}

/-- What holds at the sender, whose loop is `l`. What was written to the receiver and what has still
to be written are together the bytes of all that was queued. What calls have for the receiver was
queued, or its commands wait. -/
structure Outbound (dst : Address) (own : NetworkConfig) (w : History) (l : Loop) : Prop where
  config : l.net.config = own
  commands : w.calls.map (Network.Call.command own) = l.net.queue.map .ok
  passes : ∀ e ∈ w.queued, ∃ bytes, Network.encode own e.message = .ok bytes
  accepted : l.stands dst = true →
    w.queued.filterMap Entry.called? ++ w.calls.flatMap (Network.Call.messagesTo dst) = w.accepted
  stream : w.arrived <+: l.written dst
  bytes : ∃ rest, l.written dst ++ rest =
      (w.queued.map Entry.message).flatMap (Network.bytesOf own) ∧
    ∀ c, l.get? dst = some c → c.unsent = rest ∧ c.info.sent = w.queued.length % UInt64.size

namespace Outbound

variable {w : History} {l : Loop}

/-- It holds where nothing was queued yet. -/
theorem start (hcommands : w.calls.map (Network.Call.command l.net.config) = l.net.queue.map .ok)
    (hsender : ∃ c, l.get? dst = some c ∧ c.unsent = [] ∧ c.info.sent = 0)
    (hwritten : l.written dst = [])
    (haccepted : w.accepted = w.calls.flatMap (Network.Call.messagesTo dst))
    (hqueued : w.queued = []) (harrived : w.arrived = []) :
    Outbound dst l.net.config w l := by
  obtain ⟨c, hget, hunsent, hsent⟩ := hsender
  refine ⟨rfl, hcommands, ?_, ?_, ?_, [], ?_, ?_⟩
  · rw [hqueued]
    exact nofun
  · intro _
    rw [hqueued, haccepted]
    rfl
  · rw [harrived]
    exact List.nil_prefix
  · rw [hqueued, hwritten]
    rfl
  · intro d hd
    obtain rfl : c = d := Option.some.inj (hget.symm.trans hd)
    rw [hqueued]
    exact ⟨hunsent, hsent⟩

/-- What was written and what the connection still has to write are the bytes of all that was
queued. -/
theorem written_append_unsent (h : Outbound dst own w l) {c : Connection}
    (hget : l.get? dst = some c) :
    l.written dst ++ c.unsent =
      (w.queued.map Entry.message).flatMap (Network.bytesOf l.net.config) := by
  obtain ⟨rest, hbytes, hrest⟩ := h.bytes
  rw [(hrest c hget).1, h.config]
  exact hbytes

/-- What keeps what goes out changes nothing. -/
theorem mono (h : Outbound dst own w l) {l' : Loop}
    (hkeeps : Loop.Keeps Loop.outgoing dst l l') : Outbound dst own w l' where
  config := hkeeps.config.trans h.config
  commands := hkeeps.queue ▸ h.commands
  passes := h.passes
  accepted hstands := h.accepted (hkeeps.stands hstands)
  stream := by
    have hwritten : l'.written dst = l.written dst := hkeeps.log
    exact hwritten ▸ h.stream
  bytes := by
    obtain ⟨rest, hbytes, hrest⟩ := h.bytes
    have hwritten : l'.written dst = l.written dst := hkeeps.log
    refine ⟨rest, hwritten ▸ hbytes, ?_⟩
    intro c' hc'
    obtain ⟨c, hc, hpart⟩ := hkeeps.part c' hc'
    obtain ⟨hunsent, hsent⟩ := Prod.mk.inj hpart
    exact ⟨hunsent.trans (hrest c hc).1, hsent.trans (hrest c hc).2⟩

/-- Writing moves bytes from those that have to be written to those that were. -/
theorem flushOne (h : Outbound dst own w l) (s : Streams) (a : Address) :
    Outbound dst own w (l.flushOne s a).1 := by
  by_cases ha : a = dst
  · subst ha
    cases hget : l.get? a with
    | none =>
      rw [Loop.flushOne, hget]
      exact h
    | some c =>
      obtain ⟨rest, hbytes, hrest⟩ := h.bytes
      have hadd := c.written_append_unsent (s.writes a)
      have hflush := c.flush_eq (s.writes a)
      have hnew : ((l.put (c.flush (s.writes a)).1).emit
          [.write a (c.flush (s.writes a)).2.1]).get? a = some (c.flush (s.writes a)).1 :=
        Loop.get?_put_self hget (Loop.flush_address hget _)
      have hwritten : ((l.put (c.flush (s.writes a)).1).emit
          [.write a (c.flush (s.writes a)).2.1]).written a =
          l.written a ++ (c.flush (s.writes a)).2.1 := by
        simp [Loop.written, Loop.emit, Loop.put, Effect.writtenTo]
      rw [Loop.flushOne_fst hget]
      refine ⟨h.config, h.commands, h.passes, ?_, ?_, ?_⟩
      · intro _
        exact h.accepted (by rw [Loop.stands, hget]; rfl)
      · rw [hwritten]
        exact h.stream.trans (List.prefix_append _ _)
      · refine ⟨(c.flush (s.writes a)).1.unsent, ?_, ?_⟩
        · rw [hwritten, List.append_assoc, hadd, (hrest c hget).1]
          exact hbytes
        · intro d hd
          obtain rfl : (c.flush (s.writes a)).1 = d := Option.some.inj (hnew.symm.trans hd)
          refine ⟨rfl, ?_⟩
          rw [hflush]
          exact (hrest c hget).2
  · exact h.mono (Loop.flushOne_keeps_outgoing l s ha)

/-- The parts of a round that queue nothing. -/
theorem part (h : Outbound dst own w l) {p : Loop.Phase} (hp : p ≠ .heartbeats) {s : Streams}
    (hs : dst ∉ s.accepted) : Outbound dst own w (p.run s l) := by
  cases p with
  | heartbeats => exact absurd rfl hp
  | write =>
    exact Loop.forEach_induct (fun l a h => h.flushOne s a)
      (fun l a h => h.mono (Loop.keeps_remove l a)) h
  | close =>
    exact Loop.closeAll_induct (fun l a h => (h.flushOne s a).mono (Loop.keeps_emit_close _ a))
      (fun l h => h.mono (Loop.keeps_end l)) h
  | accept => exact h.mono (Loop.keeps_outgoing (.inl rfl) hs l)
  | read => exact h.mono (Loop.keeps_outgoing (.inr (.inl rfl)) hs l)
  | idle => exact h.mono (Loop.keeps_outgoing (.inr (.inr (.inl rfl))) hs l)
  | publish => exact h.mono (Loop.keeps_outgoing (.inr (.inr (.inr rfl))) hs l)

/-- A message is queued where the connection stands. -/
theorem enqueue (h : Outbound dst own w l) {e : Entry} {bytes : Bytes}
    (hencode : Network.encode own e.message = .ok bytes) {calls : List Network.Call}
    (hcalls : w.calls.flatMap (Network.Call.messagesTo dst) =
      e.called?.toList ++ calls.flatMap (Network.Call.messagesTo dst))
    {l' : Loop} (hconfig : l'.net.config = l.net.config)
    (hcommands : calls.map (Network.Call.command own) = l'.net.queue.map .ok)
    (hwritten : l'.written dst = l.written dst)
    (hget : l'.get? dst = (l.get? dst).map (·.enqueue bytes)) :
    Outbound dst own
      { w with calls := calls, queued := w.queued ++ if l.stands dst then [e] else [] } l' := by
  obtain ⟨rest, hbytes, hrest⟩ := h.bytes
  cases hc : l.get? dst with
  | none =>
    -- the connection is gone, so nothing is queued and nothing is claimed about it any more
    have hgone : l.stands dst = false := by rw [Loop.stands, hc]; rfl
    rw [hc, Option.map_none] at hget
    rw [hgone, if_neg Bool.false_ne_true, List.append_nil]
    refine ⟨hconfig.trans h.config, hcommands, h.passes, ?_, hwritten ▸ h.stream,
      rest, hwritten ▸ hbytes, ?_⟩
    · intro hstands
      rw [Loop.stands, hget] at hstands
      cases hstands
    · intro c hc
      rw [hget] at hc
      cases hc
  | some c =>
    have hstands : l.stands dst = true := by rw [Loop.stands, hc]; rfl
    rw [hc, Option.map_some] at hget
    rw [hstands, if_pos rfl]
    refine ⟨hconfig.trans h.config, hcommands, ?_, ?_, hwritten ▸ h.stream,
      rest ++ bytes, ?_, ?_⟩
    · intro e' he'
      rcases List.mem_append.mp he' with he' | he'
      · exact h.passes e' he'
      · obtain rfl := List.mem_singleton.mp he'
        exact ⟨bytes, hencode⟩
    · intro _
      have haccepted := h.accepted hstands
      rw [hcalls] at haccepted
      rw [List.filterMap_append, List.append_assoc, ← haccepted]
      cases e <;> rfl
    · rw [hwritten, ← List.append_assoc, hbytes, List.map_append, List.flatMap_append,
        List.map_singleton, List.flatMap_singleton, Network.bytesOf_of_encode hencode]
    · intro d hd
      obtain rfl : c.enqueue bytes = d := Option.some.inj (hget.symm.trans hd)
      obtain ⟨hunsent, hsent⟩ := hrest c hc
      refine ⟨congrArg (· ++ bytes) hunsent, ?_⟩
      rw [List.length_append]
      exact (congrArg ConnectionInfo.count hsent).trans (ConnectionInfo.count_mod _)

/-- A command that has nothing for the connection leaves the queue. -/
theorem skip (h : Outbound dst own w l) {c : Network.Call} {calls : List Network.Call}
    (hcalls : w.calls = c :: calls) (hnone : c.messagesTo dst = []) {queue : List Command}
    (hqueue : calls.map (Network.Call.command own) = queue.map .ok) :
    Outbound dst own { w with calls := calls } (l.withQueue queue) where
  config := h.config
  commands := hqueue
  passes := h.passes
  accepted hstands := by
    have haccepted := h.accepted hstands
    rw [hcalls, List.flatMap_cons, hnone, List.nil_append] at haccepted
    exact haccepted
  stream := h.stream
  bytes := h.bytes

/-- A command to send to the receiver queues its message, if the connection stands. -/
theorem performSend (h : Outbound dst own w l) {m : Message} {bytes : Bytes}
    (hencode : Network.encode own m = .ok bytes) {calls : List Network.Call}
    (hcalls : w.calls = .send dst m :: calls) {queue : List Command}
    (hqueue : calls.map (Network.Call.command own) = queue.map .ok) (s : Streams) :
    Outbound dst own
      { w with calls := calls, queued := w.queued ++ if l.stands dst then [.call m] else [] }
      ((l.withQueue queue).perform s (.send dst bytes)) := by
  have hall : w.calls.flatMap (Network.Call.messagesTo dst) =
      (Entry.call m).called?.toList ++ calls.flatMap (Network.Call.messagesTo dst) := by
    have hone : (Network.Call.send dst m).messagesTo dst = [m] := if_pos rfl
    rw [hcalls, List.flatMap_cons, hone]
    rfl
  cases hget : l.get? dst with
  | none =>
    have hgone : (l.withQueue queue).get? dst = none := hget
    rw [Loop.perform_send_of_none hgone]
    exact h.enqueue (e := .call m) hencode hall rfl hqueue rfl (by rw [hget]; exact hgone)
  | some c =>
    have hfound : (l.withQueue queue).get? dst = some c := hget
    have haddress := Loop.get?_address hget
    rw [Loop.perform_send_of_some hfound]
    refine h.enqueue (e := .call m) hencode hall rfl hqueue rfl ?_
    rw [hget]
    exact Loop.get?_put_self (d := c.enqueue bytes) hfound haddress

/-- The command of the oldest call that waits is the oldest in the queue of the loop. -/
theorem exists_command (h : Outbound dst own w l) {c : Network.Call} {calls : List Network.Call}
    (hcalls : w.calls = c :: calls) :
    ∃ cmd queue, l.net.queue = cmd :: queue ∧ c.command own = .ok cmd ∧
      calls.map (Network.Call.command own) = queue.map .ok := by
  have hcommands := h.commands
  rw [hcalls] at hcommands
  cases hqueue : l.net.queue with
  | nil =>
    rw [hqueue] at hcommands
    cases hcommands
  | cons cmd queue =>
    rw [hqueue, List.map_cons, List.map_cons] at hcommands
    obtain ⟨hcommand, hrest⟩ := List.cons.inj hcommands
    exact ⟨cmd, queue, rfl, hcommand, hrest⟩

/-- The oldest command is carried out: what it has for the connection is queued, if it stands. -/
theorem takeCommand (h : Outbound dst own w l) {c : Network.Call} {calls : List Network.Call}
    (hcalls : w.calls = c :: calls) (s : Streams) :
    Outbound dst own
      { w with
        calls := calls
        queued := w.queued ++ if l.stands dst then (c.messagesTo dst).map .call else [] }
      (l.takeCommand s) := by
  obtain ⟨cmd, queue, hqueue, hcommand, hrest⟩ := h.exists_command hcalls
  rw [Loop.takeCommand, hqueue]
  have hskip (hnone : c.messagesTo dst = []) : Outbound dst own
      { w with
        calls := calls
        queued := w.queued ++ if l.stands dst then (c.messagesTo dst).map .call else [] }
      (l.withQueue queue) := by
    rw [hnone, List.map_nil, ite_self, List.append_nil]
    exact h.skip hcalls hnone hrest
  cases c with
  | send a m =>
    obtain ⟨bytes, hencode, rfl⟩ := Network.Call.ok_of_map hcommand
    by_cases ha : a = dst
    · subst ha
      have hone : (Network.Call.send a m).messagesTo a = [m] := if_pos rfl
      rw [hone]
      exact h.performSend hencode hcalls hrest s
    · exact (hskip (if_neg ha)).mono
        (Loop.perform_send_keeps (l.withQueue queue) s fun hab => absurd hab ha)
  | broadcast m =>
    obtain ⟨bytes, hencode, rfl⟩ := Network.Call.ok_of_map hcommand
    have hall : w.calls.flatMap (Network.Call.messagesTo dst) =
        (Entry.call m).called?.toList ++ calls.flatMap (Network.Call.messagesTo dst) := by
      rw [hcalls, List.flatMap_cons]
      rfl
    exact h.enqueue (e := .call m) hencode hall rfl hrest rfl (l.get?_enqueueAll bytes dst)
  | close a =>
    obtain rfl : Command.close a = cmd := Except.ok.inj hcommand
    exact ((hskip rfl).flushOne s a).mono (Loop.keeps_remove _ a)
  | shutdown =>
    obtain rfl : Command.shutdown = cmd := Except.ok.inj hcommand
    exact hskip rfl

/-- A sign of life is queued if it is due. -/
theorem sendHeartbeats (h : Outbound dst own w l) (s : Streams) :
    Outbound dst own
      { w with
        queued := w.queued ++ if l.isDue s && l.stands dst then [.heartbeat] else [] }
      (l.sendHeartbeats s) := by
  rw [Loop.sendHeartbeats_eq]
  cases l.isDue s with
  | false =>
    rw [Bool.false_and, if_neg Bool.false_ne_true, if_neg Bool.false_ne_true, List.append_nil]
    exact h
  | true =>
    rw [Bool.true_and, if_pos rfl]
    exact h.enqueue (e := .heartbeat) (Network.encode_keepAlive own) rfl rfl h.commands rfl
      (l.get?_enqueueAll Loop.heartbeatBytes dst)

/-- A call that is accepted waits behind the others. -/
theorem call (h : Outbound dst own w l) {c : Network.Call} {net : Network}
    (hc : c.run l.net = .ok net) :
    Outbound dst own
      { w with calls := w.calls ++ [c], accepted := w.accepted ++ c.messagesTo dst }
      { l with net := net } := by
  obtain ⟨cmd, hcommand, rfl⟩ := Network.Call.run_ok hc
  rw [h.config] at hcommand
  refine ⟨h.config, ?_, h.passes, ?_, h.stream, h.bytes⟩
  · show (w.calls ++ [c]).map _ = (l.net.queue ++ [cmd]).map _
    rw [List.map_append, List.map_append, h.commands, List.map_singleton, List.map_singleton,
      hcommand]
  · intro hstands
    show w.queued.filterMap _ ++ (w.calls ++ [c]).flatMap _ = w.accepted ++ _
    rw [List.flatMap_append, List.flatMap_singleton, ← List.append_assoc, h.accepted hstands]

/-- Whatever happens at the two ends, it goes on to hold. -/
theorem step {w w' : Channel} (h : Outbound dst own w.toHistory w.sender)
    (hstep : Step dst src w w') : Outbound dst own w'.toHistory w'.sender := by
  cases hstep with
  | call hc => exact h.call hc
  | command s hcalls => exact h.takeCommand hcalls s
  | heartbeats s => exact h.sendHeartbeats s
  | part hp hs => exact h.part hp hs
  | peerCall | peerCommand | peerPart => exact h
  | read hworks hstream =>
    exact ⟨h.config, h.commands, h.passes, h.accepted, hstream, h.bytes⟩

end Outbound

/-! ## The end that receives -/

/-- What holds at the receiver, whose loop is `l`. The bytes of what was dispatched, and then those
that the decoder keeps, are what has arrived. The decoder keeps no whole frame. -/
structure Inbound (src : Address) (own peer : NetworkConfig) (w : History) (l : Loop) : Prop where
  config : l.net.config = peer
  distinct : l.addresses.Nodup
  order : l.dispatched src <+: w.queued.map Entry.message
  bytes : ∃ rest, (l.dispatched src).flatMap (Network.bytesOf own) ++ rest = w.arrived ∧
    (FrameDecoder.mk peer.maxFrame rest).next = .ok none ∧
    ∀ c, l.get? src = some c → c.decoder = ⟨peer.maxFrame, rest⟩

namespace Inbound

variable {w : History} {l : Loop}

/-- What keeps what comes in changes nothing. -/
theorem mono (h : Inbound src own peer w l) {l' : Loop}
    (hkeeps : Loop.Keeps Loop.incoming src l l') : Inbound src own peer w l' where
  config := hkeeps.config.trans h.config
  distinct := hkeeps.distinct h.distinct
  order := by
    have hdispatched : l'.dispatched src = l.dispatched src := hkeeps.log
    exact hdispatched ▸ h.order
  bytes := by
    obtain ⟨rest, hbytes, hnext, hrest⟩ := h.bytes
    have hdispatched : l'.dispatched src = l.dispatched src := hkeeps.log
    refine ⟨rest, hdispatched ▸ hbytes, hnext, ?_⟩
    intro c' hc'
    obtain ⟨c, hc, hpart⟩ := hkeeps.part c' hc'
    exact Eq.trans hpart (hrest c hc)

/-- What the sender queues comes behind what it has queued. -/
theorem queue (h : Inbound src own peer w l) {w' : History} (hqueued : w.queued <+: w'.queued)
    (harrived : w'.arrived = w.arrived) : Inbound src own peer w' l where
  config := h.config
  distinct := h.distinct
  order := h.order.trans (hqueued.map Entry.message)
  bytes := harrived ▸ h.bytes

theorem takeCommand (h : Inbound src own peer w l) (s : Streams) :
    Inbound src own peer w (l.takeCommand s) := by
  unfold Loop.takeCommand
  cases l.net.queue with
  | nil => exact h
  | cons cmd queue =>
    have h' : Inbound src own peer w (l.withQueue queue) :=
      ⟨h.config, h.distinct, h.order, h.bytes⟩
    exact h'.mono (Loop.perform_keeps_incoming _ s cmd)

/-- Reading the connection dispatches the messages that are now whole. -/
theorem readOne (h : Inbound src own peer w l)
    (hqueued : ∀ e ∈ w.queued, Network.Understands peer (Network.bytesOf own e.message) e.message)
    {s : Streams} (hworks : ∀ fault, .failed fault ∉ s.reads src) {c : Connection}
    (hget : l.get? src = some c) {bytes : Bytes}
    (hdelivered : bytes = Connection.delivered Connection.maxReads (s.reads src))
    (hstream : w.arrived ++ bytes <+:
      (w.queued.map Entry.message).flatMap (Network.bytesOf own)) :
    Inbound src own peer { w with arrived := w.arrived ++ bytes } (l.readOne s src).1 := by
  obtain ⟨todo, htodo⟩ := h.order
  obtain ⟨rest, hbytes, -, hrest⟩ := h.bytes
  have hread : (c.readAvailable (s.reads src)).1 =
      { c with decoder := ⟨peer.maxFrame, rest ++ bytes⟩ } := by
    rw [Connection.readAvailable, Connection.readFor_eq, hrest c hget, hdelivered]
    rfl
  have hcome : rest ++ bytes <+: todo.flatMap (Network.bytesOf own) := by
    rw [← hbytes, ← htodo, List.flatMap_append, List.append_assoc,
      List.prefix_append_right_inj] at hstream
    exact hstream
  have hunderstands : ∀ m ∈ todo, Network.Understands peer (Network.bytesOf own m) m := by
    intro m hm
    obtain ⟨e, he, rfl⟩ := List.mem_map.mp (htodo ▸ List.mem_append_right _ hm)
    exact hqueued e he
  -- what the decoder holds now is a part of what is still to be dispatched
  let c₁ : Connection := { c with decoder := ⟨peer.maxFrame, rest ++ bytes⟩ }
  obtain ⟨c', done, hdecode, hdone, hbuffer, hlimit, hnext⟩ :=
    Connection.decodeFor_spec (c := c₁) hunderstands s.now rfl hcome (Nat.lt_succ_self _)
  have hsrc := Loop.get?_address hget
  have haddress : c'.info.address = src := by
    obtain ⟨-, -, hsame⟩ := c₁.decodeFor_frame peer s.now (c₁.decoder.buffered + 1)
    rw [hdecode] at hsame
    exact hsame.trans hsrc
  have heq : (l.readOne s src).1 = (l.put c').emit (done.map fun m => .dispatch ⟨src, m⟩) := by
    rw [Loop.readOne_of_works hget (Connection.readFor_ne_failed hworks c), h.config, hread]
    exact congrArg (fun r : Connection × List Message × Option Error =>
      (l.put r.1).emit (r.2.1.map fun m => .dispatch ⟨src, m⟩)) hdecode
  have hdispatched : (l.readOne s src).1.dispatched src = l.dispatched src ++ done := by
    rw [heq]
    show (l.effects ++ _).flatMap (Effect.dispatchedFrom src) = _
    rw [List.flatMap_append, Loop.flatMap_dispatchedFrom_dispatch, if_pos rfl]
    rfl
  have hfound : (l.readOne s src).1.get? src = some c' := by
    rw [heq]
    exact Loop.get?_put_self hget haddress
  refine ⟨?_, ?_, ?_, c'.decoder.buffer, ?_, ?_, ?_⟩
  · rw [heq]
    exact h.config
  · rw [heq]
    exact (Loop.addresses_put l c').symm ▸ h.distinct
  · rw [hdispatched, ← htodo, List.prefix_append_right_inj]
    exact hdone
  · rw [hdispatched, List.flatMap_append, List.append_assoc, ← hbuffer, ← hbytes]
    exact (List.append_assoc _ _ _).symm
  · rw [← hlimit]
    exact hnext
  · intro d hd
    obtain rfl : c' = d := Option.some.inj (hfound.symm.trans hd)
    rw [← hlimit]

/-- Reading dispatches the messages that are now whole. -/
theorem read (h : Inbound src own peer w l)
    (hqueued : ∀ e ∈ w.queued, Network.Understands peer (Network.bytesOf own e.message) e.message)
    {s : Streams} (hworks : ∀ fault, .failed fault ∉ s.reads src)
    (hstream : w.arrived ++ l.takes s src <+:
      (w.queued.map Entry.message).flatMap (Network.bytesOf own)) :
    Inbound src own peer { w with arrived := w.arrived ++ l.takes s src } (l.readAll s) := by
  rcases Loop.readAll_once h.distinct s src with
    ⟨hnone, hkeeps⟩ | ⟨c, l₁, hget, hbefore, hget₁, hafter⟩
  · have htakes : l.takes s src = [] := by
      rw [Loop.takes, Loop.stands, hnone]
      rfl
    rw [htakes, List.append_nil]
    exact h.mono hkeeps
  · have htakes : l.takes s src = Connection.delivered Connection.maxReads (s.reads src) := by
      rw [Loop.takes, Loop.stands, hget]
      rfl
    exact ((h.mono hbefore).readOne hqueued hworks hget₁ htakes hstream).mono hafter

end Inbound

end Channel

end Parley
