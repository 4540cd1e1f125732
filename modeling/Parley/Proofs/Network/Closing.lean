import Parley.Proofs.Network.Delivery

/-!
# What an orderly end leaves behind

Closing a connection, and shutting the network down, offers all that has still to be written to the
stream, once. Then the stream is shut down, also if it has made the writer wait.

- `Connection.flush_room`: writing writes what the stream has room for and leaves the rest.
- `Loop.ends_close`, `Loop.ends_closeAll`: how a connection ends when it is closed, and when all are.
- `Channel.Opens.run`: what holds at the end that sends, whatever the other is like.
- `Channel.exists_handled`: the calls that wait are carried out before all connections are closed.
- `Channel.written_iff_room`: what was accepted before is written exactly if there was room for what
  had still to be written.
-/

namespace Parley

namespace Connection

/-- How much a stream takes before it makes the writer wait, or fails. -/
def room : List WriteOutcome → Nat
  | .accepted (n + 1) :: rest => n + 1 + room rest
  | .interrupted :: rest => room rest
  | _ => 0

/-- Writing writes what the stream has room for, and leaves the rest. -/
theorem flush_room (outcomes : List WriteOutcome) (c : Connection) :
    (c.flush outcomes).2.1 = c.unsent.take (room outcomes) ∧
      (c.flush outcomes).1.unsent = c.unsent.drop (room outcomes) := by
  induction outcomes generalizing c with
  | nil => exact ⟨rfl, rfl⟩
  | cons outcome rest ih =>
    unfold flush
    split
    · rename_i hempty
      have hnil : c.unsent = [] := List.isEmpty_iff.mp hempty
      exact ⟨by rw [hnil, List.take_nil], by rw [hnil, List.drop_nil]⟩
    · cases outcome with
      | accepted n =>
        cases n with
        | zero => exact ⟨rfl, rfl⟩
        | succ n =>
          obtain ⟨hwritten, hleft⟩ := ih { c with unsent := c.unsent.drop (n + 1) }
          constructor
          · show c.unsent.take (n + 1) ++ _ = _
            rw [hwritten]
            exact List.take_add.symm
          · exact hleft.trans List.drop_drop
      | wouldBlock => exact ⟨rfl, rfl⟩
      | interrupted => exact ih c
      | failed fault => exact ⟨rfl, rfl⟩

end Connection

namespace Loop

variable {b : Address}

/-! ## What is done about an address -/

theorem about_emit (l : Loop) (es : List Effect) (b : Address) :
    (l.emit es).about b = l.about b ++ es.filter (·.address == b) :=
  List.filter_append ..

/-- What a connection has to write is offered to its stream, which has room for some of it, and then
the stream is shut down. -/
def Ends (l l' : Loop) (b : Address) (pending : Bytes) (room : Nat) : Prop :=
  l'.about b = l.about b ++ [.write b (pending.take room), .close b]

theorem about_flushOne_self {l : Loop} {c : Connection} (hget : l.get? b = some c) (s : Streams) :
    (l.flushOne s b).1.about b =
      l.about b ++ [.write b (c.unsent.take (Connection.room (s.writes b)))] := by
  rw [flushOne_fst hget, about_emit, (c.flush_room _).1]
  simp [Effect.address, about, put]

theorem flushOne_of_ne {a : Address} (hab : a ≠ b) (l : Loop) (s : Streams) :
    (l.flushOne s a).1.about b = l.about b ∧ (l.flushOne s a).1.get? b = l.get? b := by
  cases hget : l.get? a with
  | none =>
    rw [flushOne, hget]
    exact ⟨rfl, rfl⟩
  | some c =>
    rw [flushOne_fst hget]
    refine ⟨?_, get?_put_of_ne ((flush_address hget _).symm ▸ hab)⟩
    rw [about_emit]
    simp [Effect.address, about, put, hab]

theorem about_remove_self {l : Loop} (hstands : l.stands b = true) :
    (l.remove b).about b = l.about b ++ [.close b] := by
  obtain ⟨c, hget⟩ := Option.isSome_iff_exists.mp hstands
  rw [remove, hget]
  dsimp only
  split <;> simp [about, emit, Effect.address]

theorem remove_of_ne {a : Address} (hab : a ≠ b) (l : Loop) :
    (l.remove a).about b = l.about b ∧ (l.remove a).get? b = l.get? b := by
  cases hget : l.get? a with
  | none =>
    rw [remove, hget]
    exact ⟨rfl, rfl⟩
  | some c =>
    have hfound := get?_filter_of_ne (l := l) hab
    rw [remove, hget]
    dsimp only
    split <;> exact ⟨by simp [about, emit, Effect.address, hab], hfound⟩

/-- A connection that is closed has its stream written to once more. -/
theorem ends_close {l : Loop} {c : Connection} (hget : l.get? b = some c) (s : Streams) :
    Ends l (l.perform s (.close b)) b c.unsent (Connection.room (s.writes b)) := by
  have hflushed := get?_put_self hget (flush_address hget (s.writes b))
  have hstands : (l.flushOne s b).1.stands b = true := by
    rw [flushOne_fst hget]
    exact Option.isSome_iff_exists.mpr ⟨_, hflushed⟩
  rw [Ends, perform, about_remove_self hstands, about_flushOne_self hget]
  exact List.append_assoc ..

/-- A command other than the one to close it does nothing about an address, and leaves it its
connection. -/
theorem perform_of_ne {cmd : Command} (hcmd : cmd ≠ .close b) (l : Loop) (s : Streams) :
    (l.perform s cmd).about b = l.about b ∧ (l.perform s cmd).stands b = l.stands b := by
  cases cmd with
  | send a bytes =>
    cases hget : l.get? a with
    | none =>
      rw [perform_send_of_none hget]
      exact ⟨rfl, rfl⟩
    | some c =>
      rw [perform_send_of_some hget]
      refine ⟨rfl, ?_⟩
      rw [stands, get?_put, Option.isSome_map]
      rfl
  | broadcast bytes =>
    refine ⟨rfl, ?_⟩
    show ((l.enqueueAll bytes).get? b).isSome = _
    rw [get?_enqueueAll, Option.isSome_map]
    rfl
  | close a =>
    have hab : a ≠ b := fun h => hcmd (h ▸ rfl)
    obtain ⟨habout, hget⟩ := flushOne_of_ne hab l s
    obtain ⟨habout', hget'⟩ := remove_of_ne hab (l.flushOne s a).1
    exact ⟨habout'.trans habout, congrArg Option.isSome (hget'.trans hget)⟩
  | shutdown => exact ⟨rfl, rfl⟩

/-- Each connection is closed once when all are. -/
theorem ends_closeAll {l : Loop} {c : Connection} (hget : l.get? b = some c)
    (hdistinct : l.addresses.Nodup) (s : Streams) :
    Ends l (l.closeAll s) b c.unsent (Connection.room (s.writes b)) := by
  let close (l : Loop) (a : Address) : Loop := (l.flushOne s a).1.emit [.close a]
  -- the others are closed without anything being done about this one
  have hothers {as : List Address} (hb : b ∉ as) (l : Loop) :
      (as.foldl close l).about b = l.about b ∧ (as.foldl close l).get? b = l.get? b := by
    induction as generalizing l with
    | nil => exact ⟨rfl, rfl⟩
    | cons a as ih =>
      have hab : a ≠ b := fun h => hb (h ▸ List.mem_cons_self)
      obtain ⟨habout, hfound⟩ := ih (fun h => hb (List.mem_cons_of_mem _ h)) (close l a)
      obtain ⟨habout', hfound'⟩ := flushOne_of_ne hab l s
      refine ⟨habout.trans ?_, hfound.trans hfound'⟩
      rw [about_emit, habout']
      simp [Effect.address, hab]
  have hstands : l.stands b = true := Option.isSome_iff_exists.mpr ⟨c, hget⟩
  obtain ⟨before, after, hsplit, hbefore, hafter⟩ := exists_split hdistinct hstands
  obtain ⟨habout, hfound⟩ := hothers hbefore l
  have hend : (l.closeAll s).about b = (l.addresses.foldl close l).about b := rfl
  rw [Ends, hend, hsplit, List.foldl_append, List.foldl_cons, (hothers hafter _).1]
  show (((before.foldl close l).flushOne s b).1.emit [.close b]).about b = _
  rw [about_emit, about_flushOne_self (hfound.trans hget), habout, List.append_assoc]
  simp [Effect.address]

end Loop

/-! ## The end that sends -/

namespace Network.Call

/-- Only a call to close queues a command to close. -/
theorem eq_close_of_command {config : NetworkConfig} {c : Call} {a : Address}
    (h : c.command config = .ok (.close a)) : c = .close a := by
  cases c with
  | send | broadcast =>
    obtain ⟨_, -, heq⟩ := ok_of_map h
    cases heq
  | close b =>
    cases h
    rfl
  | shutdown => cases h

theorem eq_shutdown_of_command {config : NetworkConfig} {c : Call}
    (h : c.command config = .ok .shutdown) : c = .shutdown := by
  cases c with
  | send | broadcast =>
    obtain ⟨_, -, heq⟩ := ok_of_map h
    cases heq
  | close b => cases h
  | shutdown => rfl

end Network.Call

namespace Channel

variable {dst src : Address} {own : NetworkConfig}

/-- The sender's end of a connection was just made. Calls made before may wait there. -/
structure Opens (dst : Address) (w : Channel) : Prop where
  distinct : w.sender.addresses.Nodup
  commands : w.calls.map (Network.Call.command w.sender.net.config) = w.sender.net.queue.map .ok
  sender : ∃ c, w.sender.get? dst = some c ∧ c.unsent = [] ∧ c.info.sent = 0
  written : w.sender.written dst = []
  accepted : w.accepted = w.calls.flatMap (Network.Call.messagesTo dst)
  queued : w.queued = []
  arrived : w.arrived = []

/-- No address comes twice at the sender. -/
theorem distinct_of_step {w w' : Channel} (hstep : Step dst src w w')
    (hdistinct : w.sender.addresses.Nodup) : w'.sender.addresses.Nodup := by
  cases hstep with
  | call | peerCall | peerCommand | peerPart | read => exact hdistinct
  | command s hcalls =>
    dsimp only [Loop.takeCommand]
    split
    · exact hdistinct
    · rename_i cmd rest _
      exact (Loop.perform_keeps_incoming (b := dst) (w.sender.withQueue rest) s cmd).distinct
        hdistinct
  | heartbeats s =>
    exact (Loop.sendHeartbeats_keeps_incoming (b := dst) w.sender s).distinct hdistinct
  | @part p s hp hs =>
    by_cases hread : p = .read
    · subst hread
      exact (Loop.keeps_outgoing (.inr (.inl rfl)) hs w.sender).distinct hdistinct
    · exact (Loop.keeps_incoming hread hs w.sender).distinct hdistinct

/-- What holds at the sender along a run, whatever the receiver is like. -/
theorem Opens.run {w₀ w : Channel} (h₀ : Opens dst w₀) (hrun : Run dst src w₀ w) :
    w.sender.addresses.Nodup ∧ Outbound dst w₀.sender.net.config w.toHistory w.sender := by
  induction hrun with
  | refl =>
    exact ⟨h₀.distinct,
      .start h₀.commands h₀.sender h₀.written h₀.accepted h₀.queued h₀.arrived⟩
  | tail _ hstep ih => exact ⟨distinct_of_step hstep ih.1, ih.2.step hstep⟩

/-- The calls that wait before a network is shut down are carried out. Where none of them closes the
connection, all they have for it is queued. -/
theorem exists_handled (src : Address) {w : Channel}
    (h : Outbound dst own w.toHistory w.sender) {before tail : List Network.Call}
    (hcalls : w.calls = before ++ tail)
    (hbefore : ∀ c ∈ before, c ≠ .shutdown ∧ c ≠ .close dst)
    (htail : tail = [] ∨ ∃ rest, tail = .shutdown :: rest) (hstands : w.sender.stands dst = true)
    (s : Streams) :
    ∃ w', Run dst src w w' ∧ w'.sender = w.sender.handleCommands s ∧
      w'.queued = w.queued ++ (before.flatMap (Network.Call.messagesTo dst)).map .call ∧
      w'.sender.about dst = w.sender.about dst ∧ w'.sender.stands dst = true := by
  induction before generalizing w with
  | nil =>
    rcases htail with rfl | ⟨rest, rfl⟩
    · have hqueue : w.sender.net.queue = [] := by
        have hcommands := h.commands
        rw [hcalls] at hcommands
        exact List.map_eq_nil_iff.mp hcommands.symm
      refine ⟨w, .refl, ?_, (List.append_nil _).symm, rfl, hstands⟩
      rw [Loop.handleCommands, hqueue]
      show w.sender = w.sender.withQueue []
      rw [← hqueue]
      rfl
    · obtain ⟨cmd, queue, hqueue, hcommand, -⟩ := h.exists_command hcalls
      obtain rfl : Command.shutdown = cmd := Except.ok.inj hcommand
      have htake : w.sender.takeCommand s = w.sender.withQueue queue := by
        rw [Loop.takeCommand, hqueue]
        rfl
      refine ⟨_, .single (.command s hcalls), ?_, ?_, ?_, ?_⟩
      · show w.sender.takeCommand s = _
        rw [htake, Loop.handleCommands, hqueue]
        rfl
      · show w.queued ++ (if w.sender.stands dst then [] else []) = _
        rw [ite_self]
        rfl
      · show (w.sender.takeCommand s).about dst = _
        rw [htake]
        rfl
      · show (w.sender.takeCommand s).stands dst = true
        rw [htake]
        exact hstands
  | cons c before ih =>
    obtain ⟨cmd, queue, hqueue, hcommand, -⟩ := h.exists_command hcalls
    obtain ⟨hshutdown, hclose⟩ := hbefore c List.mem_cons_self
    have hcmd : cmd ≠ .shutdown := fun heq =>
      hshutdown (Network.Call.eq_shutdown_of_command (heq ▸ hcommand))
    have hcmd' : cmd ≠ .close dst := fun heq =>
      hclose (Network.Call.eq_close_of_command (heq ▸ hcommand))
    obtain ⟨habout, hsame⟩ := Loop.perform_of_ne hcmd' (w.sender.withQueue queue) s
    let w₁ : Channel := { w with
      sender := w.sender.takeCommand s
      calls := before ++ tail
      queued := w.queued ++ if w.sender.stands dst then (c.messagesTo dst).map .call else [] }
    have hstep : Step dst src w w₁ := .command s hcalls
    have htake : w₁.sender = (w.sender.withQueue queue).perform s cmd := by
      show w.sender.takeCommand s = _
      rw [Loop.takeCommand, hqueue]
    have hstands₁ : w₁.sender.stands dst = true := by
      rw [htake, hsame]
      exact hstands
    obtain ⟨w', hrun, hsender, hqueued, habout', hstands'⟩ :=
      ih (h.step hstep) rfl (fun c hc => hbefore c (List.mem_cons_of_mem _ hc)) hstands₁
    refine ⟨w', .head hstep hrun, ?_, ?_, ?_, hstands'⟩
    · exact hsender.trans (Loop.handleCommands_takeCommand hqueue hcmd s)
    · rw [hqueued]
      show w.queued ++ (if w.sender.stands dst then _ else _) ++ _ = _
      rw [if_pos hstands, List.flatMap_cons, List.map_append, List.append_assoc]
    · rw [habout', htake, habout]
      rfl

/-! ## What is written before the end -/

/-- An orderly end of the connection to `dst`, from `l` to `l'`. What had still to be written of all
that was queued is `pending`, and the stream has room for `room` bytes. -/
structure Parting (dst : Address) (queued : List Entry) (pending : Bytes) (room : Nat)
    (l l' : Loop) : Prop where
  /-- The stream gets what it has room for, and is shut down. -/
  effects : l'.about dst = l.about dst ++ [.write dst (pending.take room), .close dst]
  /-- The rest is lost. -/
  lost : l'.written dst ++ pending.drop room =
    (queued.map Entry.message).flatMap (Network.bytesOf l.net.config)
  written_iff : l'.written dst =
    (queued.map Entry.message).flatMap (Network.bytesOf l.net.config) ↔ pending.length ≤ room

theorem Parting.of_ends {queued : List Entry} {pending : Bytes} {room : Nat} {l l' : Loop}
    (hends : l.Ends l' dst pending room)
    (hbytes : l.written dst ++ pending =
      (queued.map Entry.message).flatMap (Network.bytesOf l.net.config)) :
    Parting dst queued pending room l l' := by
  have hwritten : l'.written dst = l.written dst ++ pending.take room := by
    rw [Loop.written_eq_about, hends, List.flatMap_append, ← Loop.written_eq_about]
    simp [Effect.writtenTo]
  have hlost : l'.written dst ++ pending.drop room =
      (queued.map Entry.message).flatMap (Network.bytesOf l.net.config) := by
    rw [hwritten, List.append_assoc, List.take_append_drop, hbytes]
  refine ⟨hends, hlost, ?_⟩
  rw [← hlost, ← List.drop_eq_nil_iff, List.self_eq_append_right]

/-- A connection that is closed is written to once more before. -/
theorem parting_of_close {w : Channel} (h : Outbound dst own w.toHistory w.sender) {c : Connection}
    (hget : w.sender.get? dst = some c) {later : List Network.Call}
    (hcalls : w.calls = .close dst :: later) (s : Streams) :
    Parting dst w.queued c.unsent (Connection.room (s.writes dst)) w.sender
      (w.sender.takeCommand s) := by
  obtain ⟨cmd, queue, hqueue, hcommand, -⟩ := h.exists_command hcalls
  obtain rfl : Command.close dst = cmd := Except.ok.inj hcommand
  refine .of_ends ?_ (h.written_append_unsent hget)
  rw [Loop.takeCommand, hqueue]
  exact Loop.ends_close (l := w.sender.withQueue queue) hget s

/-- So is every connection when the network is shut down, once the calls that wait were carried
out. -/
theorem parting_of_finish {w₀ w : Channel} (h₀ : Opens dst w₀) (hrun : Run dst src w₀ w)
    {c : Connection} (hget : w.sender.get? dst = some c) {before later : List Network.Call}
    (hcalls : w.calls = before ++ later)
    (hbefore : ∀ call ∈ before, call ≠ .shutdown ∧ call ≠ .close dst)
    (hlater : later = [] ∨ ∃ rest, later = .shutdown :: rest) (s : Streams) :
    let called := before.flatMap (Network.Call.messagesTo dst)
    Parting dst (w.queued ++ called.map .call)
      (c.unsent ++ called.flatMap (Network.bytesOf w.sender.net.config))
      (Connection.room (s.writes dst)) w.sender (w.sender.finish s) := by
  intro called
  have hout := (h₀.run hrun).2
  have hstands : w.sender.stands dst = true := Option.isSome_iff_exists.mpr ⟨c, hget⟩
  obtain ⟨w', hrun', hsender, hqueued, habout, hstands'⟩ :=
    exists_handled src hout hcalls hbefore hlater hstands s
  obtain ⟨hdistinct', hout'⟩ := h₀.run (hrun.trans hrun')
  obtain ⟨c', hget'⟩ := Option.isSome_iff_exists.mp hstands'
  have hconfig : w'.sender.net.config = w.sender.net.config := hout'.config.trans hout.config.symm
  have hall : ((w.queued ++ called.map Entry.call).map Entry.message).flatMap
      (Network.bytesOf w.sender.net.config) =
        w.sender.written dst ++
          (c.unsent ++ called.flatMap (Network.bytesOf w.sender.net.config)) := by
    have hmessages : (called.map Entry.call).map Entry.message = called :=
      List.map_map.trans (List.map_id called)
    rw [List.map_append, hmessages, List.flatMap_append, ← hout.written_append_unsent hget,
      List.append_assoc]
  -- nothing was written meanwhile, so what has still to be written has grown by what was queued
  have hunsent : c'.unsent = c.unsent ++
      called.flatMap (Network.bytesOf w.sender.net.config) := by
    have hbytes := hout'.written_append_unsent hget'
    rw [hqueued, hconfig, hall, Loop.written_eq_about, habout, ← Loop.written_eq_about] at hbytes
    exact List.append_cancel_left hbytes
  have hends := Loop.ends_closeAll hget' hdistinct' s
  rw [Loop.Ends, habout, hsender, hunsent] at hends
  exact .of_ends hends hall.symm

/-- Where a connection is closed, and where the network is shut down, all that was accepted for it
before was queued. All of it is written before the stream is shut down exactly if the stream, when it
is written to for the last time, has room for what has still to be written. -/
theorem written_iff_room {w₀ w : Channel} (h₀ : Opens dst w₀) (hrun : Run dst src w₀ w)
    {c : Connection} (hget : w.sender.get? dst = some c) (s : Streams) :
    (∀ later, w.calls = .close dst :: later →
      w.queued.filterMap Entry.called? ++ later.flatMap (Network.Call.messagesTo dst) = w.accepted ∧
      Parting dst w.queued c.unsent (Connection.room (s.writes dst)) w.sender
        (w.sender.takeCommand s)) ∧
    ∀ before later, w.calls = before ++ later →
      (∀ call ∈ before, call ≠ .shutdown ∧ call ≠ .close dst) →
      (later = [] ∨ ∃ rest, later = .shutdown :: rest) →
      let called := before.flatMap (Network.Call.messagesTo dst)
      w.queued.filterMap Entry.called? ++ called ++
          later.flatMap (Network.Call.messagesTo dst) = w.accepted ∧
        Parting dst (w.queued ++ called.map .call)
          (c.unsent ++ called.flatMap (Network.bytesOf w.sender.net.config))
          (Connection.room (s.writes dst)) w.sender (w.sender.finish s) := by
  have hout := (h₀.run hrun).2
  have haccepted := hout.accepted (Option.isSome_iff_exists.mpr ⟨c, hget⟩)
  refine ⟨?_, ?_⟩
  · intro later hcalls
    refine ⟨?_, parting_of_close hout hget hcalls s⟩
    rw [← haccepted, hcalls, List.flatMap_cons]
    rfl
  · intro before later hcalls hbefore hlater called
    refine ⟨?_, parting_of_finish h₀ hrun hget hcalls hbefore hlater s⟩
    rw [← haccepted, hcalls, List.flatMap_append, List.append_assoc]

/-! ### A greeting that is cut off -/

theorem opens_dialled : Opens bob dialled where
  distinct := by decide
  commands := rfl
  sender := ⟨_, rfl, rfl, rfl⟩
  written := rfl
  accepted := rfl
  queued := rfl
  arrived := rfl

/-- The greeting is queued, and the connection is to be closed. -/
theorem exists_closing : ∃ w, Run bob alice dialled w ∧ w.calls = [.close bob] ∧
    w.accepted = [greeting] ∧ w.queued = [.call greeting] ∧
    w.sender = (((Loop.new (.new .client .default alice (some bob)) 0).perform (.quiet 0)
      (.send bob (Network.bytesOf .default greeting))).withQueue [.close bob]) := by
  have run : Run bob alice dialled _ := .single (.call (c := .send bob greeting) rfl)
  have run := run.tail (.call (c := .close bob) rfl)
  have run := run.tail (.command (.quiet 0) rfl)
  exact ⟨_, run, rfl, rfl, rfl, rfl⟩

/-- The greeting was accepted, and the network was shut down. -/
theorem exists_stopping : ∃ w, Run bob alice dialled w ∧
    w.calls = [.send bob greeting, .shutdown] ∧ w.accepted = [greeting] ∧ w.queued = [] ∧
    w.sender = (Loop.new (.new .client .default alice (some bob)) 0).withQueue
      [.send bob (Network.bytesOf .default greeting), .shutdown] := by
  have run : Run bob alice dialled _ := .single (.call (c := .send bob greeting) rfl)
  have run := run.tail (.call (c := .shutdown) rfl)
  exact ⟨_, run, rfl, rfl, rfl, rfl⟩

/-- What a stream takes that does not make the writer wait. -/
def patient : Streams :=
  yielding [] [.accepted 3, .interrupted, .accepted 100]

/-- A stream with room for the greeting gets all of it, whichever way it ends. -/
theorem greeting_goes_out : Opens bob dialled ∧
    (∃ w, Run bob alice dialled w ∧ w.calls = [.close bob] ∧ w.accepted = [greeting] ∧
      (w.sender.takeCommand patient).written bob = Network.bytesOf .default greeting) ∧
    ∃ w, Run bob alice dialled w ∧ w.calls = [.send bob greeting, .shutdown] ∧
      w.accepted = [greeting] ∧
      (w.sender.finish patient).written bob = Network.bytesOf .default greeting := by
  obtain ⟨w, hrun, hcalls, haccepted, hqueued, hsender⟩ := exists_closing
  obtain ⟨w', hrun', hcalls', haccepted', hqueued', hsender'⟩ := exists_stopping
  refine ⟨opens_dialled, ⟨w, hrun, hcalls, haccepted, ?_⟩, w', hrun', hcalls', haccepted', ?_⟩
  · have hget : ∃ c, w.sender.get? bob = some c ∧ c.unsent.length ≤ 103 := by
      rw [hsender]
      exact ⟨_, rfl, by decide⟩
    obtain ⟨c, hget, hroom⟩ := hget
    obtain ⟨-, hparting⟩ := (written_iff_room opens_dialled hrun hget patient).1 [] hcalls
    rw [hparting.written_iff.mpr hroom, hqueued, hsender]
    rfl
  · have hget : ∃ c, w'.sender.get? bob = some c ∧ c.unsent = [] := by
      rw [hsender']
      exact ⟨_, rfl, rfl⟩
    obtain ⟨c, hget, hunsent⟩ := hget
    obtain ⟨-, hparting⟩ := (written_iff_room opens_dialled hrun' hget patient).2
      [.send bob greeting] [.shutdown] hcalls' (by simp) (.inr ⟨[], rfl⟩)
    rw [hparting.written_iff.mpr ?_, hqueued', hsender']
    · rfl
    · rw [hunsent, hsender']
      decide

/-- On a stream that makes the writer wait most of the greeting is lost, whichever way it ends. -/
theorem greeting_is_cut_off :
    (∃ w, Run bob alice dialled w ∧ w.calls = [.close bob] ∧ w.accepted = [greeting] ∧
      (w.sender.takeCommand (yielding [] [.accepted 3, .wouldBlock])).about bob =
        [.write bob [1, 0, 11], .close bob]) ∧
    (∃ w, Run bob alice dialled w ∧ w.calls = [.send bob greeting, .shutdown] ∧
      w.accepted = [greeting] ∧
      (w.sender.finish (yielding [] [.accepted 3, .wouldBlock])).about bob =
        [.write bob [1, 0, 11], .close bob]) ∧
    Network.bytesOf .default greeting = [1, 0, 11, 0, 0, 0, 0, 0, 1, 0, 0, 0, 0, 0, 0, 0, 7] := by
  obtain ⟨w, hrun, hcalls, haccepted, -, hsender⟩ := exists_closing
  obtain ⟨w', hrun', hcalls', haccepted', -, hsender'⟩ := exists_stopping
  refine ⟨⟨w, hrun, hcalls, haccepted, ?_⟩, ⟨w', hrun', hcalls', haccepted', ?_⟩, rfl⟩
  · rw [hsender]
    decide
  · rw [hsender']
    decide

end Channel

end Parley
