import Parley.Proofs.Network.Ends

/-!
# Messages arrive in the order in which they were queued

- `Channel.Sound.step`: whatever happens, what holds at the two ends goes on to hold.
- `Channel.poll_run`, `Channel.peerPoll_run`: a round of either loop is made of steps.
- `Channel.delivered_in_order`: what the receiver has dispatched is the first part of what the sender
  has queued, and all of it once every byte was written and read.
-/

namespace Parley

namespace Channel

variable {dst src : Address} {own peer : NetworkConfig}

/-! ## Both ends -/

/-- What holds at every moment, where the sender's settings are `own` and the receiver's `peer`. -/
structure Sound (dst src : Address) (own peer : NetworkConfig) (w : Channel) : Prop where
  speaks : own.Speaks peer
  outbound : Outbound dst own w.toHistory w.sender
  inbound : Inbound src own peer w.toHistory w.receiver

theorem Starts.sound {w : Channel} (h : Starts dst src w) :
    Sound dst src w.sender.net.config w.receiver.net.config w where
  speaks := h.speaks
  outbound := .start h.commands h.sender h.written h.accepted h.queued h.arrived
  inbound := by
    obtain ⟨c, hget, hdecoder⟩ := h.receiver
    refine ⟨rfl, h.distinct, ?_, [], ?_, FrameDecoder.next_of_empty _ rfl, ?_⟩
    · rw [h.dispatched]
      exact List.nil_prefix
    · rw [h.dispatched, h.arrived]
      rfl
    · intro d hd
      obtain rfl : c = d := Option.some.inj (hget.symm.trans hd)
      exact hdecoder

namespace Sound

variable {w w' : Channel}

/-- The receiver understands all that is queued. -/
theorem understands (h : Sound dst src own peer w) :
    ∀ e ∈ w.queued, Network.Understands peer (Network.bytesOf own e.message) e.message := by
  intro e he
  obtain ⟨bytes, hencode⟩ := h.outbound.passes e he
  rw [Network.bytesOf_of_encode hencode]
  exact h.speaks.understands hencode

/-- Whatever happens, both ends stay sound. -/
theorem step (h : Sound dst src own peer w) (hstep : Step dst src w w') :
    Sound dst src own peer w' := by
  have ⟨hspeaks, hout, hin⟩ := h
  refine ⟨hspeaks, hout.step hstep, ?_⟩
  cases hstep with
  | call | part => exact hin.queue List.prefix_rfl rfl
  | command | heartbeats => exact hin.queue (List.prefix_append _ _) rfl
  | peerCall hc =>
    obtain ⟨cmd, -, rfl⟩ := Network.Call.run_ok hc
    exact ⟨hin.config, hin.distinct, hin.order, hin.bytes⟩
  | peerCommand s => exact hin.takeCommand s
  | peerPart hp hs => exact hin.mono (Loop.keeps_incoming hp hs _)
  | read hworks hstream =>
    -- what arrives was written, and what was written was queued
    obtain ⟨rest, hbytes, -⟩ := hout.bytes
    have hcome : w.arrived ++ w.receiver.takes _ src <+: _ := hstream.trans ⟨rest, hbytes⟩
    exact hin.read h.understands hworks hcome

theorem run (h : Sound dst src own peer w) (hrun : Run dst src w w') :
    Sound dst src own peer w' := by
  induction hrun with
  | refl => exact h
  | tail _ hstep ih => exact ih.step hstep

/-- Where nothing is left to write, all was written. -/
theorem settled (h : Sound dst src own peer w) {c : Connection} (hget : w.sender.get? dst = some c)
    (hunsent : c.unsent = []) (hread : w.arrived = w.sender.written dst) : Settled dst w := by
  have hbytes := h.outbound.written_append_unsent hget
  rw [hunsent, List.append_nil] at hbytes
  exact ⟨hbytes, hread⟩

/-- Once all bytes were written and read, all that was queued was dispatched. -/
theorem dispatched_of_settled (h : Sound dst src own peer w) (hsettled : Settled dst w) :
    w.receiver.dispatched src = w.queued.map Entry.message := by
  obtain ⟨rest, hbytes, hnext, -⟩ := h.inbound.bytes
  obtain ⟨todo, htodo⟩ := h.inbound.order
  have hall := hsettled.read.trans hsettled.written
  rw [h.outbound.config, ← hbytes, ← htodo, List.flatMap_append,
    List.append_cancel_left_eq] at hall
  cases todo with
  | nil => rw [← htodo, List.append_nil]
  | cons m todo =>
    -- the decoder would keep a whole frame
    obtain ⟨e, he, rfl⟩ := List.mem_map.mp (htodo ▸ List.mem_append_right _ List.mem_cons_self)
    obtain ⟨frame, hframe, hlimit, hlength, -⟩ := h.understands e he
    rw [List.flatMap_cons, hframe] at hall
    have hwhole := FrameDecoder.next_of_buffer ⟨peer.maxFrame, rest⟩ frame _ hall hlimit hlength
    rw [hwhole] at hnext
    cases hnext

end Sound

/-! ## Whole rounds -/

/-- The sender carries out as many commands as it likes. -/
theorem run_commands (dst src : Address) {w : Channel} (s : Streams) {n : Nat}
    (hn : n ≤ w.calls.length) :
    ∃ w', Run dst src w w' ∧ w'.sender = (fun l => l.takeCommand s)^[n] w.sender ∧
      w'.receiver = w.receiver := by
  induction n generalizing w with
  | zero => exact ⟨w, .refl, rfl, rfl⟩
  | succ n ih =>
    cases hcalls : w.calls with
    | nil =>
      rw [hcalls] at hn
      exact absurd hn (Nat.not_succ_le_zero n)
    | cons c rest =>
      rw [hcalls] at hn
      have hstep : Step dst src w _ := .command s hcalls
      obtain ⟨w', hrun, hsender, hreceiver⟩ := ih (w := { w with
        sender := w.sender.takeCommand s
        calls := rest
        queued := w.queued ++ if w.sender.stands dst then (c.messagesTo dst).map .call else [] })
        (Nat.le_of_succ_le_succ hn)
      exact ⟨w', .head hstep hrun, hsender, hreceiver⟩

/-- A round of the sender is a run. -/
theorem poll_run {w : Channel} (h : Sound dst src own peer w) {s : Streams}
    (hs : dst ∉ s.accepted) :
    ∃ w', Run dst src w w' ∧ w'.sender = w.sender.poll s ∧ w'.receiver = w.receiver := by
  have part {w : Channel} (p : Loop.Phase) (hp : p ≠ .heartbeats) :
      Step dst src w { w with sender := p.run s w.sender } := .part hp hs
  let w₁ : Channel := { w with sender := w.sender.accept s }
  have hlength : w₁.sender.net.queue.length = w₁.calls.length := by
    have hcommands := congrArg List.length (h.outbound.part (p := .accept) nofun hs).commands
    rw [List.length_map, List.length_map] at hcommands
    exact hcommands.symm
  obtain ⟨n, hn, heq⟩ := w₁.sender.handleCommands_eq s
  obtain ⟨w₂, hrun, hsender, hreceiver⟩ :=
    run_commands dst src s (hlength ▸ hn)
  have hrun' := (((((hrun.tail (.heartbeats s)).tail (part .read nofun)).tail
    (part .write nofun)).tail (part .idle nofun)).tail (part .publish nofun))
  refine ⟨_, .head (part .accept nofun) hrun', ?_, hreceiver⟩
  show ((((w₂.sender.sendHeartbeats s).readAll s).writeAll s).dropIdle s).publish = _
  rw [hsender, ← heq]
  rfl

/-- The receiver carries out as many commands as it likes. -/
theorem run_peerCommands (dst src : Address) (w : Channel) (s : Streams) (n : Nat) :
    Run dst src w { w with receiver := (fun l => l.takeCommand s)^[n] w.receiver } := by
  induction n generalizing w with
  | zero => exact .refl
  | succ n ih => exact .head (.peerCommand s) (ih { w with receiver := w.receiver.takeCommand s })

/-- A round of the receiver is a run, if its reads yield what went into the stream. -/
theorem peerPoll_run {w : Channel} {s : Streams} (hs : src ∉ s.accepted)
    (hworks : ∀ fault, .failed fault ∉ s.reads src)
    (hstream : w.arrived ++ Connection.delivered Connection.maxReads (s.reads src) <+:
      w.sender.written dst) :
    ∃ w', Run dst src w w' ∧ w'.receiver = w.receiver.poll s ∧ w'.sender = w.sender := by
  have part {w : Channel} (p : Loop.Phase) (hp : p ≠ .read) :
      Step dst src w { w with receiver := p.run s w.receiver } := .peerPart hp hs
  let w₁ : Channel := { w with receiver := w.receiver.accept s }
  obtain ⟨n, -, heq⟩ := w₁.receiver.handleCommands_eq s
  have hrun := run_peerCommands dst src w₁ s n
  rw [← heq] at hrun
  have hcome (l : Loop) : w.arrived ++ l.takes s src <+: w.sender.written dst := by
    unfold Loop.takes
    split
    · exact hstream
    · rw [List.append_nil]
      exact (List.prefix_append _ _).trans hstream
  have hrun' := (((((hrun.tail (part .heartbeats nofun)).tail (.read hworks (hcome _))).tail
    (part .write nofun)).tail (part .idle nofun)).tail (part .publish nofun))
  exact ⟨_, .head (part .accept nofun) hrun', rfl, rfl⟩

/-- At every moment the messages that were dispatched are the first of those that were queued, in
the same order, and once all bytes were written and read they are all of them. What was queued is
what the accepted calls have for the connection, in their order, as long as it stands and up to the
commands that wait, with signs of life in between; the sender counts it, as far as its counter
goes. -/
theorem delivered_in_order {w₀ w : Channel} (h₀ : Starts dst src w₀) (hrun : Run dst src w₀ w) :
    w.receiver.dispatched src <+: w.queued.map Entry.message ∧
      (Settled dst w → w.receiver.dispatched src = w.queued.map Entry.message) ∧
      (w.sender.stands dst = true → w.queued.filterMap Entry.called? ++
        w.calls.flatMap (Network.Call.messagesTo dst) = w.accepted) ∧
      ∀ c, w.sender.get? dst = some c → c.info.sent = w.queued.length % UInt64.size := by
  have h := h₀.sound.run hrun
  obtain ⟨rest, -, hrest⟩ := h.outbound.bytes
  exact ⟨h.inbound.order, h.dispatched_of_settled, h.outbound.accepted, fun c hc => (hrest c hc).2⟩

/-! ## A greeting and a sign of life -/

/-- The address of the caller. -/
def alice : Address :=
  ⟨.v4 #v[127, 0, 0, 1], 7001⟩

/-- The address of the other. -/
def bob : Address :=
  ⟨.v4 #v[127, 0, 0, 1], 7002⟩

/-- A client that has just connected to a server. -/
def dialled : Channel where
  sender := .new (.new .client .default alice (some bob)) 0
  receiver := (Loop.new (.new .server .default bob none) 0).add 0 alice
  calls := []
  accepted := []
  queued := []
  arrived := []

theorem starts_dialled : Starts bob alice dialled where
  speaks := ⟨rfl, rfl, rfl, id⟩
  distinct := by decide
  commands := rfl
  sender := ⟨_, rfl, rfl, rfl⟩
  receiver := ⟨_, rfl, rfl⟩
  written := rfl
  dispatched := rfl
  accepted := rfl
  queued := rfl
  arrived := rfl

/-- What the client says. -/
def greeting : Message :=
  .echo (.new [7])

/-- What all streams yield in a round. -/
def yielding (reads : List ReadOutcome) (writes : List WriteOutcome) : Streams :=
  ⟨1000, [], fun _ => reads, fun _ => writes⟩

/-- The greeting goes out in two pieces and comes in in three, the last with a sign of life. -/
theorem run_greeting : ∃ w, Run bob alice dialled w ∧
    (∃ c, w.sender.get? bob = some c ∧ c.unsent = []) ∧ w.arrived = w.sender.written bob ∧
    w.queued = [.call greeting, .heartbeat] := by
  have call : Step bob alice dialled _ := .call (c := .send bob greeting) rfl
  have run := (Relation.ReflTransGen.single call).tail (.command (.quiet 0) rfl)
  have run := run.tail (.heartbeats (.quiet 1000))
  have run := run.tail (.part (p := .write) (s := yielding [] [.accepted 3, .wouldBlock])
    nofun nofun)
  have run := run.tail (.read (s := yielding [.data [1, 0, 11]] []) (by simp [yielding])
    (by decide))
  have run := run.tail (.part (p := .write) (s := yielding [] [.interrupted, .accepted 100])
    nofun nofun)
  have run := run.tail (.read
    (s := yielding [.interrupted, .data [0, 0, 0],
      .data [0, 0, 1, 0, 0, 0, 0, 0, 0, 0, 7, 0, 0, 0, 0, 0, 0]] [])
    (by simp [yielding]) (by decide))
  exact ⟨_, run, ⟨_, rfl, rfl⟩, rfl, rfl⟩

/-- Both messages arrive. -/
theorem greeting_arrives : Starts bob alice dialled ∧ ∃ w, Run bob alice dialled w ∧
    Settled bob w ∧ w.receiver.dispatched alice = [greeting, .keepAlive] := by
  obtain ⟨w, run, ⟨c, hget, hunsent⟩, hread, hqueued⟩ := run_greeting
  have hsettled := (starts_dialled.sound.run run).settled hget hunsent hread
  have hall := (delivered_in_order starts_dialled run).2.1 hsettled
  exact ⟨starts_dialled, w, run, hsettled, by rw [hall, hqueued]; rfl⟩

end Channel

end Parley
