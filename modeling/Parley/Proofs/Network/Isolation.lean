import Mathlib.Logic.Function.Basic
import Parley.Proofs.Network.Rounds

/-!
# Connections do not notice each other

All connections share a loop, a table and the rounds. Whatever comes from one of them, and however its
stream fails, nothing of it is seen on another: a round of a loop with one connection left out is the
same as leaving the connection out after the round.

- `Loop.hide`: a loop without one of its connections; `Streams.hide`: what comes from outside without
  what comes from there.
- `Loop.foldl_hide`: of things done one after the other, those that leave no trace are left out.
- `Loop.Hides`, `Loop.hide_forEach`: reading from all connections, and writing to all.
- `Loop.hide_perform`, `Loop.hide_poll`: a command, and a round.
- `Loop.isolated`: rounds that differ in what one connection yields look the same on all others.
-/

namespace Parley

/-- What comes from outside, without what one address yields. -/
def Streams.hide (s : Streams) (x : Address) : Streams :=
  { s with
    accepted := s.accepted.filter (· != x)
    reads := Function.update s.reads x []
    writes := Function.update s.writes x [] }

namespace Loop

/-- The loop without the connection to an address, and without all that happened there. -/
def hide (l : Loop) (x : Address) : Loop :=
  { l with
    net := l.net.disconnect x
    connections := l.connections.filter (·.info.address != x)
    effects := l.effects.filter (·.address != x)
    journal := l.journal.filter (· != .lostServer x) }

variable {x : Address}

/-- Where things are done one after the other, those that leave no trace can be left out. -/
theorem foldl_hide {σ τ α : Type} (hide : σ → τ) {p : α → Bool} {f : σ → α → σ} {g : τ → α → τ}
    (hself : ∀ s a, p a = false → hide (f s a) = hide s)
    (hothers : ∀ s a, p a = true → hide (f s a) = g (hide s) a) (as : List α) (s : σ) :
    hide (as.foldl f s) = (as.filter p).foldl g (hide s) := by
  induction as generalizing s with
  | nil => rfl
  | cons a as ih =>
    rw [List.foldl_cons, ih]
    cases hp : p a with
    | false => rw [List.filter_cons_of_neg (by simp [hp]), hself s a hp]
    | true => rw [List.filter_cons_of_pos hp, List.foldl_cons, hothers s a hp]

/-! ## The changes a loop is made of -/

theorem get?_hide_of_ne {a : Address} (h : a ≠ x) (l : Loop) : (l.hide x).get? a = l.get? a :=
  get?_filter_of_ne h.symm

theorem get?_hide_self (l : Loop) (x : Address) : (l.hide x).get? x = none :=
  get?_filter_self l x

theorem addresses_hide (l : Loop) (x : Address) :
    (l.hide x).addresses = l.addresses.filter (· != x) := by
  simp only [addresses, hide, List.filter_map]
  rfl

theorem hide_emit_of_ne {es : List Effect} (h : ∀ e ∈ es, e.address ≠ x) (l : Loop) :
    (l.emit es).hide x = (l.hide x).emit es := by
  have hall : es.filter (·.address != x) = es :=
    List.filter_eq_self.mpr fun e he => bne_iff_ne.mpr (h e he)
  simp only [emit, hide, List.filter_append, hall]

theorem hide_emit_self {es : List Effect} (h : ∀ e ∈ es, e.address = x) (l : Loop) :
    (l.emit es).hide x = l.hide x := by
  have hnone : es.filter (·.address != x) = [] :=
    List.filter_eq_nil_iff.mpr fun e he => by simp [h e he]
  simp only [emit, hide, List.filter_append, hnone, List.append_nil]

/-- A change of all connections that leaves their addresses. -/
theorem hide_map {f : Connection → Connection} (hf : ∀ c, (f c).info.address = c.info.address)
    (l : Loop) : ({ l with connections := l.connections.map f } : Loop).hide x =
      { l.hide x with connections := (l.hide x).connections.map f } := by
  have hsame : ((fun c : Connection => c.info.address != x) ∘ f) = fun c => c.info.address != x := by
    funext c
    simp only [Function.comp, hf]
  simp only [hide, List.filter_map, hsame]

theorem hide_put (c : Connection) (l : Loop) : (l.put c).hide x = (l.hide x).put c :=
  hide_map (fun d => by split <;> simp_all) l

/-- What is not there is not replaced. -/
theorem put_of_none {l : Loop} {c : Connection} (h : l.get? c.info.address = none) :
    l.put c = l := by
  have hsame : (l.connections.map fun d =>
      if d.info.address == c.info.address then c else d) = l.connections.map id := by
    refine List.map_congr_left ?_
    intro d hd
    exact if_neg (List.find?_eq_none.mp h d hd)
  simp only [put, hsame, List.map_id]

theorem hide_put_self {c : Connection} (hc : c.info.address = x) (l : Loop) :
    (l.put c).hide x = l.hide x := by
  rw [hide_put, put_of_none]
  rw [hc, get?_hide_self]

theorem hide_enqueueAll (l : Loop) (bytes : Bytes) :
    (l.enqueueAll bytes).hide x = (l.hide x).enqueueAll bytes :=
  hide_map (f := fun c => c.enqueue bytes) (fun _ => rfl) l

/-! ### The table -/

theorem erase_erase_self (t : ConnectionTable) (a : Address) :
    (t.erase a).erase a = t.erase a := by
  simp [ConnectionTable.erase, List.filter_filter]

theorem erase_comm (t : ConnectionTable) (a b : Address) :
    (t.erase a).erase b = (t.erase b).erase a := by
  simp only [ConnectionTable.erase, List.filter_filter, Bool.and_comm]

/-- Replacing an entry and leaving one out can be done in any order. -/
theorem erase_replace (t : ConnectionTable) (info : ConnectionInfo) (x : Address) :
    ConnectionTable.erase (t.map fun i => if i.address == info.address then info else i) x =
      (t.erase x).map fun i => if i.address == info.address then info else i := by
  have hsame : ((fun i : ConnectionInfo => i.address != x) ∘ fun i =>
      if i.address == info.address then info else i) = fun i => i.address != x := by
    funext i
    simp only [Function.comp]
    split <;> simp_all
  rw [ConnectionTable.erase, List.filter_map, hsame]
  rfl

theorem erase_put_self (t : ConnectionTable) {info : ConnectionInfo} (h : info.address = x) :
    (t.put info).erase x = t.erase x := by
  unfold ConnectionTable.put
  split
  · rw [erase_replace]
    refine (List.map_congr_left ?_).trans (List.map_id _)
    intro i hi
    have hne : i.address ≠ x := by simpa using (List.mem_filter.mp hi).2
    rw [h, if_neg (by simpa using hne)]
    rfl
  · simp [ConnectionTable.erase, List.filter_append, h]

theorem erase_put_of_ne (t : ConnectionTable) {info : ConnectionInfo} (h : info.address ≠ x) :
    (t.put info).erase x = (t.erase x).put info := by
  have hcontains : (t.erase x).contains info.address = t.contains info.address := by
    rw [Bool.eq_iff_iff, ConnectionTable.contains_erase_iff]
    exact and_iff_left h
  unfold ConnectionTable.put
  rw [hcontains]
  split
  · exact erase_replace t info x
  · simp [ConnectionTable.erase, List.filter_append, h]

/-! ### Connections that come and go -/

theorem hide_add_self (l : Loop) (now : Nat) (x : Address) : (l.add now x).hide x = l.hide x := by
  have htable : (l.net.table.put (.new x now)).erase x = l.net.table.erase x :=
    erase_put_self _ rfl
  let fresh := Connection.new x now l.net.config.maxFrame
  have hconnections : (l.connections.filter (·.info.address != x) ++ [fresh]).filter
      (·.info.address != x) = l.connections.filter (·.info.address != x) := by
    simp [List.filter_filter, fresh, Connection.new, ConnectionInfo.new]
  simp only [hide, add, Network.disconnect, htable, hconnections, fresh]

theorem hide_add_of_ne {a : Address} (h : a ≠ x) (l : Loop) (now : Nat) :
    (l.add now a).hide x = (l.hide x).add now a := by
  have htable : (l.net.table.put (.new a now)).erase x = (l.net.table.erase x).put (.new a now) :=
    erase_put_of_ne _ h
  let fresh := Connection.new a now l.net.config.maxFrame
  have hconnections : (l.connections.filter (·.info.address != a) ++ [fresh]).filter
      (·.info.address != x) =
        (l.connections.filter (·.info.address != x)).filter (·.info.address != a) ++ [fresh] := by
    simp [List.filter_filter, fresh, Connection.new, ConnectionInfo.new, h, Bool.and_comm]
  simp only [hide, add, Network.disconnect, htable, hconnections, fresh]

theorem hide_remove_self (l : Loop) (x : Address) : (l.remove x).hide x = l.hide x := by
  unfold remove
  split
  · rfl
  · dsimp only
    split <;>
      simp [hide, emit, Network.disconnect, erase_erase_self, List.filter_filter, List.filter_append,
        Effect.address]

theorem hide_remove_of_ne {a : Address} (h : a ≠ x) (l : Loop) :
    (l.remove a).hide x = (l.hide x).remove a := by
  unfold remove
  rw [get?_hide_of_ne h]
  cases l.get? a with
  | none => rfl
  | some c =>
    dsimp only
    by_cases hserver : l.net.remoteAddress = some a <;>
      simp [hide, emit, Network.disconnect, hserver, h, erase_comm, List.filter_filter,
        Bool.and_comm, List.filter_append, Effect.address]

theorem hide_removeAll (as : List Address) (l : Loop) :
    (as.foldl remove l).hide x = (as.filter (· != x)).foldl remove (l.hide x) := by
  refine foldl_hide (fun l : Loop => l.hide x) ?_ ?_ as l
  · intro l a ha
    obtain rfl : a = x := by simpa using ha
    exact hide_remove_self l a
  · intro l a ha
    exact hide_remove_of_ne (by simpa using ha) l

/-! ## The parts of a round -/

theorem hide_accept (l : Loop) (s : Streams) :
    (l.accept s).hide x = (l.hide x).accept (s.hide x) := by
  refine foldl_hide (fun l : Loop => l.hide x) ?_ ?_ s.accepted l
  · intro l a ha
    obtain rfl : a = x := by simpa using ha
    exact hide_add_self l s.now a
  · intro l a ha
    exact hide_add_of_ne (by simpa using ha) l s.now

/-- What is done with one connection after the other, once with a connection and once without it. -/
structure Hides (x : Address) (f g : Loop → Address → Loop × Bool) : Prop where
  self : ∀ l, (f l x).1.hide x = l.hide x
  others : ∀ l a, a ≠ x → ((f l a).1.hide x, (f l a).2) = g (l.hide x) a

theorem hide_forEach {f g : Loop → Address → Loop × Bool} (h : Hides x f g) (l : Loop) :
    (l.forEach f).hide x = (l.hide x).forEach g := by
  -- beside the loop, those that do not go on are collected
  let hidePair (st : Loop × List Address) := (st.1.hide x, st.2.filter (· != x))
  have hself (st : Loop × List Address) (a : Address) (ha : (a != x) = false) :
      hidePair (attend f st a) = hidePair st := by
    obtain rfl : a = x := by simpa using ha
    refine Prod.ext (h.self st.1) ?_
    dsimp only [hidePair, attend]
    split <;> simp
  have hothers (st : Loop × List Address) (a : Address) (ha : (a != x) = true) :
      hidePair (attend f st a) = attend g (hidePair st) a := by
    have hax : a ≠ x := by simpa using ha
    have heq := h.others st.1 a hax
    simp only [hidePair, attend, ← heq]
    refine Prod.ext rfl ?_
    dsimp only
    split <;> simp [hax]
  have hfold := foldl_hide hidePair hself hothers l.addresses (l, [])
  rw [← addresses_hide] at hfold
  have hloop := congrArg Prod.fst hfold
  have hclosed := congrArg Prod.snd hfold
  refine (hide_removeAll _ _).trans ?_
  exact congrArg₂ (fun as l => as.foldl remove l) hclosed hloop

theorem hides_readOne (s : Streams) (x : Address) :
    Hides x (fun l a => l.readOne s a) (fun l a => l.readOne (s.hide x) a) where
  self l := by
    cases hget : l.get? x with
    | none => rw [readOne, hget]
    | some c =>
      obtain ⟨d, ms, heq, haddress, -⟩ := readOne_eq hget s
      rw [heq, hide_emit_self (by simp [Effect.address]), hide_put_self haddress]
  others l a ha := by
    have hreads : (s.hide x).reads a = s.reads a := Function.update_of_ne ha _ _
    unfold readOne
    rw [get?_hide_of_ne ha, hreads]
    cases hget : l.get? a with
    | none => rfl
    | some c =>
      have hdispatch (ms : List Message) : ∀ e ∈ ms.map fun m => Effect.dispatch ⟨a, m⟩,
          e.address ≠ x := by
        simpa [Effect.address] using fun _ _ => ha
      dsimp only
      split
      · exact Prod.ext (hide_put _ l) rfl
      · refine Prod.ext ?_ rfl
        rw [hide_emit_of_ne (hdispatch _), hide_put]
        rfl

theorem hides_flushOne (s : Streams) (x : Address) :
    Hides x (fun l a => l.flushOne s a) (fun l a => l.flushOne (s.hide x) a) where
  self l := by
    cases hget : l.get? x with
    | none => rw [flushOne, hget]
    | some c =>
      rw [flushOne_fst hget, hide_emit_self (by simp [Effect.address]),
        hide_put_self (flush_address hget _)]
  others l a ha := by
    have hwrites : (s.hide x).writes a = s.writes a := Function.update_of_ne ha _ _
    unfold flushOne
    rw [get?_hide_of_ne ha, hwrites]
    cases hget : l.get? a with
    | none => rfl
    | some c =>
      refine Prod.ext ?_ rfl
      rw [hide_emit_of_ne (by simpa [Effect.address] using ha), hide_put]

theorem hide_perform (l : Loop) (s : Streams) (c : Command) :
    (l.perform s c).hide x = (l.hide x).perform (s.hide x) c := by
  cases c with
  | send a bytes =>
    by_cases ha : a = x
    · subst ha
      rw [perform_send_of_none (get?_hide_self l a)]
      cases hget : l.get? a with
      | none => rw [perform_send_of_none hget]
      | some c =>
        have haddress := get?_address hget
        rw [perform_send_of_some hget]
        exact hide_put_self (c := c.enqueue bytes) haddress l
    · have hsame := get?_hide_of_ne ha l
      cases hget : l.get? a with
      | none => rw [perform_send_of_none hget, perform_send_of_none (hsame.trans hget)]
      | some c =>
        rw [perform_send_of_some hget, perform_send_of_some (hsame.trans hget), hide_put]
  | broadcast bytes => exact hide_enqueueAll l bytes
  | close a =>
    have hflush := hides_flushOne s x
    by_cases ha : a = x
    · subst ha
      have hnone := get?_hide_self l a
      have hgone : (l.hide a).perform (s.hide a) (.close a) = l.hide a := by
        simp only [perform, flushOne, remove, hnone]
      rw [hgone]
      exact (hide_remove_self _ a).trans (hflush.self l)
    · have hothers := congrArg Prod.fst (hflush.others l a ha)
      simp only [perform]
      rw [hide_remove_of_ne ha]
      exact congrArg (remove · a) hothers
  | shutdown => rfl

theorem hide_handleCommands (l : Loop) (s : Streams) :
    (l.handleCommands s).hide x = (l.hide x).handleCommands (s.hide x) := by
  have hall (cs : List Command) (l : Loop) :
      (l.performAll s cs).hide x = (l.hide x).performAll (s.hide x) cs := by
    induction cs generalizing l with
    | nil => rfl
    | cons c cs ih =>
      cases c with
      | shutdown => rfl
      | _ => rw [performAll, performAll, ih, hide_perform] <;> exact Command.noConfusion
  exact hall l.net.queue l

theorem hide_sendHeartbeats (l : Loop) (s : Streams) :
    (l.sendHeartbeats s).hide x = (l.hide x).sendHeartbeats (s.hide x) := by
  have hdue : (l.hide x).isDue (s.hide x) = l.isDue s := rfl
  rw [sendHeartbeats_eq, sendHeartbeats_eq, hdue]
  split
  · exact hide_enqueueAll { l with lastHeartbeat := s.now } heartbeatBytes
  · rfl

theorem hide_dropIdle (l : Loop) (s : Streams) :
    (l.dropIdle s).hide x = (l.hide x).dropIdle (s.hide x) := by
  have hconfig : (l.hide x).net.config = l.net.config := rfl
  unfold dropIdle
  rw [hconfig]
  cases l.net.config.idleTimeout with
  | none => rfl
  | some timeout =>
    let idle := fun c : Connection => decide (timeout < s.now - c.info.lastReceived)
    have hidle : ((l.connections.filter idle).map (·.info.address)).filter (· != x) =
        ((l.hide x).connections.filter idle).map (·.info.address) := by
      rw [List.filter_map, hide]
      simp only [List.filter_filter, Function.comp_def, Bool.and_comm]
    exact (hide_removeAll _ l).trans (congrArg (List.foldl remove (l.hide x)) hidle)

theorem hide_publish (l : Loop) : l.publish.hide x = (l.hide x).publish := by
  have htable : ((l.connections.filter (·.dirty)).foldl (fun t c => t.put c.info)
      l.net.table).erase x = (((l.connections.filter (·.info.address != x)).filter (·.dirty)).foldl
        (fun t c => t.put c.info) (l.net.table.erase x)) := by
    rw [foldl_hide (fun t : ConnectionTable => t.erase x)
      (p := fun c : Connection => c.info.address != x) (g := fun t c => t.put c.info)]
    · simp only [List.filter_filter, Bool.and_comm]
    · intro t c hc
      exact erase_put_self t (by simpa using hc)
    · intro t c hc
      exact erase_put_of_ne t (by simpa using hc)
  have hmap : (l.connections.map fun c => { c with dirty := false }).filter
      (·.info.address != x) =
      (l.connections.filter (·.info.address != x)).map fun c => { c with dirty := false } := by
    rw [List.filter_map]
    rfl
  simp only [hide, publish, Network.disconnect, htable, hmap]

/-- A round is the same for a loop without one of its connections. -/
theorem hide_poll (l : Loop) (s : Streams) (x : Address) :
    (l.poll s).hide x = (l.hide x).poll (s.hide x) := by
  simp only [poll]
  rw [hide_publish, hide_dropIdle, writeAll, hide_forEach (hides_flushOne s x), readAll,
    hide_forEach (hides_readOne s x), hide_sendHeartbeats, hide_handleCommands, hide_accept]
  rfl

end Loop

/-! ## Rounds -/

/-- What one round gets: the commands that were queued since the last one, and what the outside
yields. -/
structure Round where
  commands : List Command
  streams : Streams

/-- Two rounds that differ at most in what the streams of one address yield. -/
structure Round.SameBut (x : Address) (r r' : Round) : Prop where
  commands : r.commands = r'.commands
  now : r.streams.now = r'.streams.now
  accepted : r.streams.accepted = r'.streams.accepted
  reads : ∀ a ≠ x, r.streams.reads a = r'.streams.reads a
  writes : ∀ a ≠ x, r.streams.writes a = r'.streams.writes a

namespace Loop

/-- Carries out a round. -/
def round (l : Loop) (r : Round) : Loop :=
  (l.withQueue (l.net.queue ++ r.commands)).poll r.streams

/-- The loop after a number of rounds. -/
def after (l : Loop) (rounds : Nat → Round) : Nat → Loop
  | 0 => l
  | n + 1 => (l.after rounds n).round (rounds n)

/-- What there is to be seen of a connection. -/
structure View where
  /-- The messages from there, in the order in which they were dispatched. -/
  dispatched : List Message
  written : Bytes
  /-- The connection, with what is queued for it, if it is one of the loop's. -/
  connection : Option Connection
  /-- Its entry in the table of connections. -/
  entry : Option ConnectionInfo

def view (l : Loop) (a : Address) : View :=
  ⟨l.dispatched a, l.written a, l.get? a, l.net.table.get? a⟩

theorem hide_round_eq {x : Address} {r r' : Round} (h : r.SameBut x r') {l l' : Loop}
    (hl : l.hide x = l'.hide x) : (l.round r).hide x = (l'.round r').hide x := by
  have hstreams : r.streams.hide x = r'.streams.hide x := by
    have hyield {α : Type} {f g : Address → List α} (hfg : ∀ a ≠ x, f a = g a) :
        Function.update f x [] = Function.update g x [] := by
      funext a
      by_cases ha : a = x
      · rw [ha, Function.update_self, Function.update_self]
      · rw [Function.update_of_ne ha, Function.update_of_ne ha, hfg a ha]
    simp only [Streams.hide, h.now, h.accepted, hyield h.reads, hyield h.writes]
  have hqueue : l.net.queue = l'.net.queue := congrArg (·.net.queue) hl
  have hqueued : (l.withQueue (l.net.queue ++ r.commands)).hide x =
      (l'.withQueue (l'.net.queue ++ r'.commands)).hide x := by
    rw [hqueue, h.commands]
    exact congrArg (withQueue · (l'.net.queue ++ r'.commands)) hl
  rw [round, round, hide_poll, hide_poll, hqueued, hstreams]

theorem view_hide_of_ne {x y : Address} (hy : y ≠ x) (l : Loop) : (l.hide x).view y = l.view y := by
  have hentry : (l.net.table.erase x).get? y = l.net.table.get? y := by
    rw [ConnectionTable.erase, ConnectionTable.get?, List.find?_filter, ConnectionTable.get?]
    congr 1
    funext i
    by_cases hi : i.address = y <;> simp [hi, hy]
  -- what is about the one address leaves nothing in the logs of the other
  have hother {e : Effect} (he : (e.address != x) = false) : e.address ≠ y := by
    rw [bne_eq_false_iff_eq.mp he]
    exact hy.symm
  have hdispatched : (l.hide x).dispatched y = l.dispatched y :=
    flatMap_filter_effects (fun _ he => dispatchedFrom_of_ne (hother he)) l.effects
  have hwritten : (l.hide x).written y = l.written y :=
    flatMap_filter_effects (fun _ he => writtenTo_of_ne (hother he)) l.effects
  simp only [view, hdispatched, hwritten, get?_hide_of_ne hy]
  exact congrArg _ hentry

/-- After any number of rounds that differ at most in what the streams of one connection yield, all
others are the same: what was dispatched from them and written to them, the connections with what
they have queued, and what the table says about them. -/
theorem isolated {x : Address} {rounds rounds' : Nat → Round}
    (h : ∀ n, (rounds n).SameBut x (rounds' n)) (l : Loop) (n : Nat) {y : Address} (hy : y ≠ x) :
    (l.after rounds n).view y = (l.after rounds' n).view y := by
  have hhide : (l.after rounds n).hide x = (l.after rounds' n).hide x := by
    induction n with
    | zero => rfl
    | succ n ih => exact hide_round_eq (h n) ih
  rw [← view_hide_of_ne hy, hhide, view_hide_of_ne hy]

/-! ### Somebody who talks nonsense -/

/-- An address that sends nonsense. -/
def noisy : Address :=
  .ipv4 127 0 0 1 7001

/-- An address that sends signs of life. -/
def quiet : Address :=
  .ipv4 127 0 0 1 7002

/-- A server that both are connected to. -/
def visited : Loop :=
  ((new (.new .server .default (.ipv4 127 0 0 1 7000) none) 0).add 0 noisy).add 0 quiet

/-- Rounds in which the streams of the one yield what they like, and the other sends a sign of life.
Both are sent something, which takes the other more than a round. -/
def visits (reads : List ReadOutcome) (writes : List WriteOutcome) (n : Nat) : Round :=
  ⟨[.broadcast [0, 0, 2, 0, 0, 0, 7, 8]], 1000 * n, [],
    fun a => if a = noisy then reads else [.data heartbeatBytes],
    fun a => if a = noisy then writes else [.accepted 4, .wouldBlock]⟩

/-- Rounds in which the one sends a kind of message that there is not, and cannot be written to. -/
abbrev disturbed : Nat → Round :=
  visits [.data [255, 0, 0, 0, 0, 0]] [.failed .brokenPipe]

/-- The one is gone, and the other goes on as if nothing had happened. -/
theorem nonsense_unnoticed :
    (∀ n, (disturbed n).SameBut noisy (visits [] [] n)) ∧ quiet ≠ noisy ∧
      (visited.after disturbed 2).view quiet = (visited.after (visits [] []) 2).view quiet ∧
      (visited.after disturbed 2).dispatched quiet = [.keepAlive, .keepAlive] ∧
      (visited.after disturbed 2).stands noisy = false ∧
      (visited.after (visits [] []) 2).stands noisy = true := by
  have hsame : ∀ n, (disturbed n).SameBut noisy (visits [] [] n) := by
    intro n
    refine ⟨rfl, rfl, rfl, ?_, ?_⟩ <;>
      intro a ha <;> simp [disturbed, visits, ha]
  have hquiet : quiet ≠ noisy := by decide
  exact ⟨hsame, hquiet, isolated hsame visited 2 hquiet, by decide, by decide, by decide⟩

end Loop

end Parley
