import Mathlib.Logic.Function.Iterate
import Parley.Proofs.Network.Aspects
import Parley.Proofs.Network.Intake

/-!
# The parts of a round

Each part of a round touches at most one aspect of a connection, and each command does.

- `Loop.keeps_outgoing`, `Loop.keeps_incoming`: the parts that keep an aspect.
- `Loop.perform_keeps_incoming`: no command has to do with what comes in.
- `Loop.takeCommand`, `Loop.performAll_withQueue`: the queued commands can be carried out one by
  one, with others queued in between.
-/

namespace Parley

namespace Loop

variable {α β : Type} {v : Aspect α β} {b : Address}

/-! ## The parts of a round -/

/-- The parts of a round other than the commands, and the end of all connections. -/
inductive Phase
  | accept | heartbeats | read | write | idle | publish | close
deriving DecidableEq, Repr

/-- Carries out one part of a round. -/
def Phase.run (p : Phase) (s : Streams) (l : Loop) : Loop :=
  match p with
  | accept => l.accept s
  | heartbeats => l.sendHeartbeats s
  | read => l.readAll s
  | write => l.writeAll s
  | idle => l.dropIdle s
  | publish => l.publish
  | close => l.closeAll s

theorem keeps_accept {s : Streams} (hs : b ∉ s.accepted) (l : Loop) :
    Keeps v b l (l.accept s) := by
  unfold accept
  generalize s.accepted = as at hs
  induction as generalizing l with
  | nil => exact Keeps.refl l
  | cons a as ih =>
    have hab : a ≠ b := fun h => hs (h ▸ List.mem_cons_self)
    exact (keeps_add l s.now hab).trans (ih _ fun h => hs (List.mem_cons_of_mem _ h))

theorem keeps_dropIdle (s : Streams) (l : Loop) : Keeps v b l (l.dropIdle s) := by
  unfold dropIdle
  split
  · exact Keeps.refl l
  · exact keeps_removeAll _ l

theorem keeps_publish (l : Loop) : Keeps v b l l.publish := by
  have h := keeps_map (v := v) (b := b) (f := fun c => { c with dirty := false }) (fun _ => rfl)
    (fun c => v.part_dirty c false) l
  exact ⟨h.config, h.queue, h.distinct, h.log, h.part⟩

/-- What holds of a loop after each connection was written to, and after each was closed, holds after
all connections have ended. -/
theorem closeAll_induct {P : Loop → Prop} {s : Streams}
    (hflush : ∀ l a, P l → P ((l.flushOne s a).1.emit [.close a]))
    (hend : ∀ l : Loop, P l → P { l with net := { l.net with table := [] }, connections := [] })
    {l : Loop} (h : P l) : P (l.closeAll s) :=
  hend _ (foldl_induct hflush _ h)

theorem keeps_emit_close (l : Loop) (a : Address) : Keeps v b l (l.emit [.close a]) := by
  refine ⟨rfl, rfl, id, ?_, fun c hc => ⟨c, hc, rfl⟩⟩
  show (l.effects ++ [Effect.close a]).flatMap (v.log b) = _
  rw [List.flatMap_append, List.flatMap_singleton, v.log_close, List.append_nil]

theorem keeps_end (l : Loop) :
    Keeps v b l { l with net := { l.net with table := [] }, connections := [] } :=
  ⟨rfl, rfl, fun _ => List.nodup_nil, rfl, nofun⟩

/-! ## Reading and writing one connection -/

/-- A stream that fails leaves its connection undecoded. -/
theorem readOne_of_failed {l : Loop} {a : Address} {c : Connection} (hget : l.get? a = some c)
    {s : Streams} {fault : HostFault} (hfailed : (c.readAvailable (s.reads a)).2 = .failed fault) :
    (l.readOne s a).1 = l.put (c.readAvailable (s.reads a)).1 := by
  unfold readOne
  rw [hget]
  dsimp only
  rw [hfailed]

/-- A stream that does not fail has the messages on it decoded and dispatched. -/
theorem readOne_of_works {l : Loop} {a : Address} {c : Connection} (hget : l.get? a = some c)
    {s : Streams} (hworks : ∀ fault, (c.readAvailable (s.reads a)).2 ≠ .failed fault) :
    (l.readOne s a).1 =
      let r := (c.readAvailable (s.reads a)).1.decode l.net.config s.now
      (l.put r.1).emit (r.2.1.map fun m => .dispatch ⟨a, m⟩) := by
  unfold readOne
  rw [hget]
  dsimp only
  generalize (c.readAvailable (s.reads a)).1 = c₁
  generalize (c.readAvailable (s.reads a)).2 = ending at hworks
  cases ending with
  | failed fault => exact absurd rfl (hworks fault)
  | _ => rfl

theorem emit_nil (l : Loop) : l.emit [] = l := by
  simp [emit]

/-- Reading from a connection takes in bytes and decodes for some rounds, which are none if the stream
fails. -/
theorem readOne_decoded {l : Loop} {a : Address} {c : Connection} (hget : l.get? a = some c)
    (s : Streams) : ∃ decoder rounds,
      let r := Connection.decodeFor l.net.config s.now rounds { c with decoder := decoder }
      (l.readOne s a).1 = (l.put r.1).emit (r.2.1.map fun m => .dispatch ⟨a, m⟩) := by
  let decoder := c.decoder.extend (Connection.delivered Connection.maxReads (s.reads a))
  have hread : (c.readAvailable (s.reads a)).1 = { c with decoder := decoder } :=
    c.readFor_eq Connection.maxReads (s.reads a)
  by_cases hfailed : ∃ fault, (c.readAvailable (s.reads a)).2 = .failed fault
  · obtain ⟨fault, hfailed⟩ := hfailed
    refine ⟨decoder, 0, ?_⟩
    rw [readOne_of_failed hget hfailed, hread]
    exact (emit_nil _).symm
  · rw [not_exists] at hfailed
    refine ⟨decoder, decoder.buffered + 1, ?_⟩
    rw [readOne_of_works hget hfailed, hread]
    rfl

/-- Reading from a connection changes that one only, and dispatches what came from it. -/
theorem readOne_eq {l : Loop} {a : Address} {c : Connection} (hget : l.get? a = some c)
    (s : Streams) : ∃ (d : Connection) (ms : List Message),
      (l.readOne s a).1 = (l.put d).emit (ms.map fun m => .dispatch ⟨a, m⟩) ∧
      d.info.address = a ∧ outgoing.part d = outgoing.part c := by
  obtain ⟨decoder, rounds, heq⟩ := readOne_decoded hget s
  obtain ⟨hunsent, hsent, hsame⟩ :=
    Connection.decodeFor_frame l.net.config s.now rounds { c with decoder := decoder }
  have haddress := get?_address hget
  exact ⟨_, _, heq, hsame.trans haddress, Prod.ext hunsent hsent⟩

theorem flatMap_writtenTo_dispatch (a b : Address) (ms : List Message) :
    (ms.map fun m => Effect.dispatch ⟨a, m⟩).flatMap (Effect.writtenTo b) = [] := by
  simp [List.flatMap_eq_nil_iff, Effect.writtenTo]

theorem flatMap_dispatchedFrom_dispatch (a b : Address) (ms : List Message) :
    (ms.map fun m => Effect.dispatch ⟨a, m⟩).flatMap (Effect.dispatchedFrom b) =
      if a = b then ms else [] := by
  by_cases hab : a = b <;> induction ms <;> simp_all [Effect.dispatchedFrom]

/-- Reading keeps what goes out. -/
theorem readOne_keeps_outgoing (l : Loop) (s : Streams) (a : Address) :
    Keeps outgoing b l (l.readOne s a).1 := by
  cases hget : l.get? a with
  | none =>
    rw [readOne, hget]
    exact Keeps.refl l
  | some c =>
    obtain ⟨d, ms, heq, haddress, hpart⟩ := readOne_eq hget s
    rw [heq]
    exact keeps_put hget haddress (fun _ => hpart) (flatMap_writtenTo_dispatch a b ms)

/-- Reading from one connection keeps what comes in from another. -/
theorem readOne_keeps_incoming (l : Loop) (s : Streams) {a : Address} (hab : a ≠ b) :
    Keeps incoming b l (l.readOne s a).1 := by
  cases hget : l.get? a with
  | none =>
    rw [readOne, hget]
    exact Keeps.refl l
  | some c =>
    obtain ⟨d, ms, heq, haddress, -⟩ := readOne_eq hget s
    rw [heq]
    refine keeps_put hget haddress (fun h => absurd h hab) ?_
    exact (flatMap_dispatchedFrom_dispatch a b ms).trans (if_neg hab)

theorem flushOne_fst {l : Loop} {a : Address} {c : Connection} (hget : l.get? a = some c)
    (s : Streams) : (l.flushOne s a).1 =
      (l.put (c.flush (s.writes a)).1).emit [.write a (c.flush (s.writes a)).2.1] := by
  rw [flushOne, hget]

theorem flush_address {l : Loop} {a : Address} {c : Connection} (hget : l.get? a = some c)
    (outcomes : List WriteOutcome) : (c.flush outcomes).1.info.address = a := by
  have haddress := get?_address hget
  rw [Connection.flush_eq]
  exact haddress

/-- Writing keeps what comes in. -/
theorem flushOne_keeps_incoming (l : Loop) (s : Streams) (a : Address) :
    Keeps incoming b l (l.flushOne s a).1 := by
  cases hget : l.get? a with
  | none =>
    rw [flushOne, hget]
    exact Keeps.refl l
  | some c =>
    rw [flushOne_fst hget]
    refine keeps_put hget (flush_address hget _) ?_ rfl
    intro _
    show (c.flush (s.writes a)).1.decoder = c.decoder
    rw [Connection.flush_eq]

/-- Writing to one connection keeps what goes out to another. -/
theorem flushOne_keeps_outgoing (l : Loop) (s : Streams) {a : Address} (hab : a ≠ b) :
    Keeps outgoing b l (l.flushOne s a).1 := by
  cases hget : l.get? a with
  | none =>
    rw [flushOne, hget]
    exact Keeps.refl l
  | some c =>
    rw [flushOne_fst hget]
    refine keeps_put hget (flush_address hget _) (fun h => absurd h hab) ?_
    simp [outgoing, Effect.writtenTo, hab]

/-- Reading from other connections leaves a connection where it is. -/
theorem foldl_readOne_of_not_mem (s : Streams) {as : List Address} (hb : b ∉ as) (l : Loop) :
    let l' := as.foldl (fun l a => (l.readOne s a).1) l
    Keeps incoming b l l' ∧ l'.get? b = l.get? b := by
  induction as generalizing l with
  | nil => exact ⟨Keeps.refl l, rfl⟩
  | cons a as ih =>
    have hab : a ≠ b := fun h => hb (h ▸ List.mem_cons_self)
    obtain ⟨hkeeps, hget⟩ := ih (fun h => hb (List.mem_cons_of_mem _ h)) (l.readOne s a).1
    refine ⟨(readOne_keeps_incoming l s hab).trans hkeeps, hget.trans ?_⟩
    cases hgeta : l.get? a with
    | none => rw [readOne, hgeta]
    | some c =>
      obtain ⟨d, ms, heq, haddress, -⟩ := readOne_eq hgeta s
      rw [heq]
      exact get?_put_of_ne (haddress ▸ hab)

theorem mem_addresses_iff (l : Loop) (b : Address) : b ∈ l.addresses ↔ l.stands b = true := by
  simp [addresses, stands, get?]

/-- A connection comes once among all of them. -/
theorem exists_split {l : Loop} (hdistinct : l.addresses.Nodup) (hstands : l.stands b = true) :
    ∃ before after, l.addresses = before ++ b :: after ∧ b ∉ before ∧ b ∉ after := by
  obtain ⟨before, after, hsplit⟩ := List.append_of_mem ((l.mem_addresses_iff b).mpr hstands)
  rw [hsplit, List.nodup_append, List.nodup_cons] at hdistinct
  exact ⟨before, after, hsplit, fun h => hdistinct.2.2 b h b List.mem_cons_self rfl,
    hdistinct.2.1.1⟩

/-- A round of reads comes to each connection once. -/
theorem readAll_once {l : Loop} (hdistinct : l.addresses.Nodup) (s : Streams) (b : Address) :
    (l.get? b = none ∧ Keeps incoming b l (l.readAll s)) ∨
      ∃ c l₁, l.get? b = some c ∧ Keeps incoming b l l₁ ∧ l₁.get? b = some c ∧
        Keeps incoming b (l₁.readOne s b).1 (l.readAll s) := by
  obtain ⟨closed, heq⟩ := l.forEach_eq fun l a => l.readOne s a
  rw [readAll, heq]
  cases hc : l.get? b with
  | none =>
    have hb : b ∉ l.addresses := by
      rw [mem_addresses_iff, stands, hc]
      exact Bool.false_ne_true
    obtain ⟨hkeeps, -⟩ := foldl_readOne_of_not_mem s hb l
    exact .inl ⟨rfl, hkeeps.trans (keeps_removeAll closed _)⟩
  | some c =>
    have hstands : l.stands b = true := Option.isSome_iff_exists.mpr ⟨c, hc⟩
    obtain ⟨before, after, hsplit, hbefore, hafter⟩ := exists_split hdistinct hstands
    rw [hsplit, List.foldl_append, List.foldl_cons]
    -- the reads before and behind that of `b` are those of other connections
    obtain ⟨hkeeps, hget⟩ := foldl_readOne_of_not_mem s hbefore l
    obtain ⟨hkeeps', -⟩ := foldl_readOne_of_not_mem s hafter
      ((before.foldl (fun l a => (l.readOne s a).1) l).readOne s b).1
    exact .inr ⟨c, _, rfl, hkeeps, hget.trans hc, hkeeps'.trans (keeps_removeAll closed _)⟩

/-! ## Queueing -/

/-- Whether a sign of life is due. -/
def isDue (l : Loop) (s : Streams) : Bool :=
  match l.net.config.heartbeat with
  | none => false
  | some interval => interval ≤ s.now - l.lastHeartbeat

theorem sendHeartbeats_eq (l : Loop) (s : Streams) :
    l.sendHeartbeats s =
      if l.isDue s then { l with lastHeartbeat := s.now }.enqueueAll heartbeatBytes else l := by
  unfold sendHeartbeats isDue
  cases l.net.config.heartbeat with
  | none => rfl
  | some interval =>
    by_cases h : s.now - l.lastHeartbeat < interval
    · simp [h, Nat.not_le.mpr h]
    · simp [h, Nat.not_lt.mp h]

theorem get?_enqueueAll (l : Loop) (bytes : Bytes) (b : Address) :
    (l.enqueueAll bytes).get? b = (l.get? b).map (·.enqueue bytes) :=
  get?_map (f := fun c => c.enqueue bytes) (fun _ => rfl) l b

theorem enqueueAll_keeps_incoming (l : Loop) (bytes : Bytes) :
    Keeps incoming b l (l.enqueueAll bytes) :=
  keeps_map (f := fun c => c.enqueue bytes) (fun _ => rfl) (fun _ => rfl) l

theorem sendHeartbeats_keeps_incoming (l : Loop) (s : Streams) :
    Keeps incoming b l (l.sendHeartbeats s) := by
  rw [sendHeartbeats_eq]
  split
  · have h := enqueueAll_keeps_incoming (b := b) { l with lastHeartbeat := s.now } heartbeatBytes
    exact ⟨h.config, h.queue, h.distinct, h.log, h.part⟩
  · exact Keeps.refl l

theorem perform_send_of_some {l : Loop} {a : Address} {c : Connection} (hget : l.get? a = some c)
    (s : Streams) (bytes : Bytes) : l.perform s (.send a bytes) = l.put (c.enqueue bytes) := by
  simp only [perform, hget]

theorem perform_send_of_none {l : Loop} {a : Address} (hget : l.get? a = none) (s : Streams)
    (bytes : Bytes) : l.perform s (.send a bytes) = l := by
  simp only [perform, hget]

/-- A command to send concerns its own connection only, and there what queueing touches. -/
theorem perform_send_keeps (l : Loop) (s : Streams) {a : Address} {bytes : Bytes}
    (hpart : a = b → ∀ c, v.part (Connection.enqueue c bytes) = v.part c) :
    Keeps v b l (l.perform s (.send a bytes)) := by
  cases hget : l.get? a with
  | none =>
    rw [perform_send_of_none hget]
    exact Keeps.refl l
  | some c =>
    have haddress := get?_address hget
    have h : Keeps v b l ((l.put (c.enqueue bytes)).emit []) :=
      keeps_put (d := c.enqueue bytes) hget haddress (fun hab => hpart hab c) rfl
    rw [perform_send_of_some hget]
    exact emit_nil (l.put (c.enqueue bytes)) ▸ h

/-- No command has to do with what comes in. -/
theorem perform_keeps_incoming (l : Loop) (s : Streams) (c : Command) :
    Keeps incoming b l (l.perform s c) := by
  cases c with
  | send a bytes => exact perform_send_keeps l s fun _ _ => rfl
  | broadcast bytes => exact enqueueAll_keeps_incoming l bytes
  | close a => exact (flushOne_keeps_incoming l s a).trans (keeps_remove _ a)
  | shutdown => exact Keeps.refl l

/-! ## All parts together -/

/-- Only reading has to do with what comes in. -/
theorem keeps_incoming {p : Phase} (hp : p ≠ .read) {s : Streams} (hs : b ∉ s.accepted) (l : Loop) :
    Keeps incoming b l (p.run s l) := by
  cases p with
  | accept => exact keeps_accept hs l
  | heartbeats => exact sendHeartbeats_keeps_incoming l s
  | read => exact absurd rfl hp
  | write => exact keeps_forEach (fun l a => flushOne_keeps_incoming l s a) l
  | idle => exact keeps_dropIdle s l
  | publish => exact keeps_publish l
  | close =>
    refine closeAll_induct ?_ (fun l' h => h.trans (keeps_end l')) (Keeps.refl l)
    intro l' a h
    exact h.trans ((flushOne_keeps_incoming l' s a).trans (keeps_emit_close _ a))

/-- The parts of a round that neither queue nor write have nothing to do with what goes out. -/
theorem keeps_outgoing {p : Phase} (hp : p = .accept ∨ p = .read ∨ p = .idle ∨ p = .publish)
    {s : Streams} (hs : b ∉ s.accepted) (l : Loop) : Keeps outgoing b l (p.run s l) := by
  rcases hp with rfl | rfl | rfl | rfl
  · exact keeps_accept hs l
  · exact keeps_forEach (fun l a => readOne_keeps_outgoing l s a) l
  · exact keeps_dropIdle s l
  · exact keeps_publish l

/-! ## Commands, one by one -/

/-- The loop with another queue. -/
def withQueue (l : Loop) (queue : List Command) : Loop :=
  { l with net := { l.net with queue := queue } }

/-- Carries out the oldest command. -/
def takeCommand (l : Loop) (s : Streams) : Loop :=
  match l.net.queue with
  | [] => l
  | c :: rest => (l.withQueue rest).perform s c

theorem remove_withQueue (l : Loop) (queue : List Command) (a : Address) :
    (l.withQueue queue).remove a = (l.remove a).withQueue queue := by
  have hget : (l.withQueue queue).get? a = l.get? a := rfl
  unfold remove
  rw [hget]
  cases l.get? a with
  | none => rfl
  | some c =>
    dsimp only
    split <;> split <;> first | rfl | contradiction

theorem flushOne_withQueue (l : Loop) (queue : List Command) (s : Streams) (a : Address) :
    ((l.withQueue queue).flushOne s a).1 = (l.flushOne s a).1.withQueue queue := by
  have hget : (l.withQueue queue).get? a = l.get? a := rfl
  unfold flushOne
  rw [hget]
  cases l.get? a with
  | none => rfl
  | some c => rfl

/-- What a command does does not depend on those that wait. -/
theorem perform_withQueue (l : Loop) (queue : List Command) (s : Streams) (c : Command) :
    (l.withQueue queue).perform s c = (l.perform s c).withQueue queue := by
  cases c with
  | send a bytes =>
    have hsame : (l.withQueue queue).get? a = l.get? a := rfl
    cases hget : l.get? a with
    | none => rw [perform_send_of_none hget, perform_send_of_none (hsame.trans hget)]
    | some c =>
      rw [perform_send_of_some hget, perform_send_of_some (hsame.trans hget)]
      rfl
  | broadcast bytes => rfl
  | close a =>
    simp only [perform]
    rw [flushOne_withQueue, remove_withQueue]
  | shutdown => rfl

theorem performAll_withQueue (l : Loop) (queue : List Command) (s : Streams) (cs : List Command) :
    (l.withQueue queue).performAll s cs = l.performAll s cs := by
  induction cs generalizing l with
  | nil => rfl
  | cons c cs ih =>
    cases c with
    | shutdown => rfl
    | _ =>
      simp only [performAll]
      rw [perform_withQueue, ih]

theorem perform_queue (l : Loop) (s : Streams) (c : Command) :
    (l.perform s c).net.queue = l.net.queue :=
  (perform_keeps_incoming (b := l.net.localAddress) l s c).queue

theorem takeCommand_queue {l : Loop} {c : Command} {rest : List Command}
    (hqueue : l.net.queue = c :: rest) (s : Streams) : (l.takeCommand s).net.queue = rest := by
  rw [takeCommand, hqueue]
  exact perform_queue (l.withQueue rest) s c

/-- Carrying out one command leaves the others in the queue. -/
theorem handleCommands_takeCommand {l : Loop} {c : Command} {rest : List Command}
    (hqueue : l.net.queue = c :: rest) (hc : c ≠ .shutdown) (s : Streams) :
    (l.takeCommand s).handleCommands s = l.handleCommands s := by
  have htake : l.takeCommand s = (l.perform s c).withQueue rest := by
    rw [takeCommand, hqueue]
    exact perform_withQueue l rest s c
  rw [handleCommands, takeCommand_queue hqueue, htake, performAll_withQueue, handleCommands, hqueue]
  cases c <;> first | rfl | exact absurd rfl hc

/-- All queued commands, or those up to one to shut down, are carried out one by one. -/
theorem handleCommands_eq (l : Loop) (s : Streams) :
    ∃ n ≤ l.net.queue.length, l.handleCommands s = (fun l => l.takeCommand s)^[n] l := by
  generalize hqueue : l.net.queue = queue
  induction queue generalizing l with
  | nil =>
    refine ⟨0, Nat.le_refl 0, ?_⟩
    rw [handleCommands, hqueue]
    show l.withQueue [] = l
    rw [← hqueue]
    rfl
  | cons c rest ih =>
    by_cases hc : c = .shutdown
    · -- what stands behind a command to shut down stays in the queue
      subst hc
      refine ⟨1, by simp, ?_⟩
      rw [Function.iterate_one, takeCommand, handleCommands, hqueue]
      rfl
    · obtain ⟨n, hn, heq⟩ := ih (l.takeCommand s) (takeCommand_queue hqueue s)
      refine ⟨n + 1, Nat.succ_le_succ hn, ?_⟩
      rw [← handleCommands_takeCommand hqueue hc, heq, Function.iterate_succ_apply]

end Loop

end Parley
