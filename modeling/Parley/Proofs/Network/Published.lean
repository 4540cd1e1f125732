import Mathlib.Data.List.Induction
import Mathlib.Data.List.Nodup
import Mathlib.Logic.Function.Basic
import Parley.Proofs.Network.Rounds

/-!
# The published table tells the truth

A loop keeps its connections, and a table of them that everybody else reads. Both change in many
places, and the table may be behind only where a connection is marked for it.

- `Chronicle`: what was queued for each connection since it was added, and how much had come from its
  address before. `Operation.step` is an operation of the loop, with the chronicle kept beside it.
- `Truthful`: the table and the connections agree, up to the marks, and the counters agree with the
  chronicle. `Truthful.change`, `Truthful.remove`, `Truthful.add` and `Truthful.publish` are the changes
  that operations are made of, `Truthful.step` is an operation, `truthful_run` any number of them.
- `published_table_truthful`: what holds at every boundary between operations, and after a round.
-/

namespace Parley

namespace ConnectionTable

variable {t : ConnectionTable} {info : ConnectionInfo} {a b : Address}

theorem contains_iff_mem : t.contains a = true ↔ a ∈ t.addresses := by
  rw [contains_iff, addresses, List.mem_map]

/-- A known address keeps its place. -/
theorem addresses_put_of_mem (h : info.address ∈ t.addresses) :
    (t.put info).addresses = t.addresses := by
  rw [put, if_pos (contains_iff_mem.mpr h), addresses, addresses, List.map_map]
  refine List.map_congr_left fun i _ => ?_
  simp only [Function.comp]
  split <;> simp_all

theorem addresses_put_of_not_mem (h : info.address ∉ t.addresses) :
    (t.put info).addresses = t.addresses ++ [info.address] := by
  rw [put, if_neg (h ∘ contains_iff_mem.mp), addresses, addresses, List.map_append]
  rfl

theorem mem_addresses_put : a ∈ (t.put info).addresses ↔ a ∈ t.addresses ∨ a = info.address := by
  rw [← contains_iff_mem, contains_put_iff, contains_iff_mem, eq_comm]

theorem nodup_put (h : t.addresses.Nodup) : (t.put info).addresses.Nodup := by
  by_cases hmem : info.address ∈ t.addresses
  · rwa [addresses_put_of_mem hmem]
  · rw [addresses_put_of_not_mem hmem, ← List.concat_eq_append]
    exact h.concat hmem

theorem get?_address {i : ConnectionInfo} (h : t.get? a = some i) : i.address = a := by
  simpa using List.find?_some h

theorem get?_put (t : ConnectionTable) (info : ConnectionInfo) (a : Address) :
    (t.put info).get? a = if info.address = a then some info else t.get? a := by
  unfold put
  split
  · rename_i hcontains
    have hsame : ((fun i : ConnectionInfo => i.address == a) ∘ fun i =>
        if i.address == info.address then info else i) = fun i => i.address == a := by
      funext i
      simp only [Function.comp]
      split <;> simp_all
    rw [get?, List.find?_map, hsame, ← get?]
    cases hget : t.get? a with
    | none =>
      rw [if_neg]
      · rfl
      · rintro rfl
        obtain ⟨i, hi, heq⟩ := (contains_iff t info.address).mp hcontains
        exact absurd heq (by simpa using List.find?_eq_none.mp hget i hi)
    | some i =>
      have hi := get?_address hget
      by_cases h : info.address = a
      · simp [hi, h]
      · simp [hi, h, Ne.symm h]
  · rename_i hcontains
    have hnone : t.get? info.address = none := List.find?_eq_none.mpr fun i hi heq =>
      hcontains ((contains_iff t info.address).mpr ⟨i, hi, by simpa using heq⟩)
    by_cases h : info.address = a
    · rw [← h, get?, List.find?_append, ← get?, hnone]
      simp
    · rw [get?, List.find?_append, ← get?]
      simp [h]

theorem addresses_erase : (t.erase a).addresses = t.addresses.filter (· != a) := by
  simp only [addresses, erase, List.filter_map]
  rfl

theorem get?_erase_of_ne (h : a ≠ b) : (t.erase a).get? b = t.get? b := by
  rw [get?, erase, List.find?_filter, get?]
  congr 1
  funext i
  by_cases hi : i.address = b <;> simp [hi, Ne.symm h]

/-- Of several entries for distinct addresses that are put in, each is found. -/
theorem get?_foldl_put {cs : List Connection} (hdistinct : (cs.map (·.info.address)).Nodup)
    {c : Connection} (hc : c ∈ cs) (t : ConnectionTable) :
    (cs.foldl (fun t c => t.put c.info) t).get? c.info.address = some c.info := by
  induction cs using List.reverseRecOn with
  | nil => cases hc
  | append_singleton front d ih =>
    rw [List.foldl_append, List.foldl_cons, List.foldl_nil, get?_put]
    rw [List.map_append, List.map_singleton, List.nodup_append'] at hdistinct
    rcases List.mem_append.mp hc with hmem | hmem
    · have hne : d.info.address ≠ c.info.address := fun heq =>
        hdistinct.2.2 (List.mem_map_of_mem hmem) (List.mem_singleton.mpr heq.symm)
      rw [if_neg hne]
      exact ih hdistinct.1 hmem
    · rw [List.mem_singleton.mp hmem, if_pos rfl]

theorem get?_foldl_put_of_not_mem {cs : List Connection} (ha : a ∉ cs.map (·.info.address))
    (t : ConnectionTable) : (cs.foldl (fun t c => t.put c.info) t).get? a = t.get? a := by
  induction cs generalizing t with
  | nil => rfl
  | cons c cs ih =>
    rw [List.map_cons, List.mem_cons, not_or] at ha
    rw [List.foldl_cons, ih ha.2, get?_put, if_neg (Ne.symm ha.1)]

theorem addresses_foldl_put {cs : List Connection} {t : ConnectionTable}
    (h : ∀ c ∈ cs, c.info.address ∈ t.addresses) :
    (cs.foldl (fun t c => t.put c.info) t).addresses = t.addresses := by
  induction cs generalizing t with
  | nil => rfl
  | cons c cs ih =>
    have hput := addresses_put_of_mem (h c List.mem_cons_self)
    rw [List.foldl_cons, ih, hput]
    intro d hd
    rw [hput]
    exact h d (List.mem_cons_of_mem _ hd)

end ConnectionTable

/-! ## What happens to the connections -/

/-- What has happened to the connection that an address has now, since it was added. -/
structure Chronicle where
  /-- The frames that were queued for it. -/
  queued : Address → List Bytes
  /-- How many messages had been dispatched from its address before. -/
  before : Address → Nat

namespace Chronicle

def empty : Chronicle := ⟨fun _ => [], fun _ => 0⟩

/-- A connection is added. -/
def join (g : Chronicle) (l : Loop) (a : Address) : Chronicle where
  queued := Function.update g.queued a []
  before := Function.update g.before a (l.dispatched a).length

theorem queued_join_self (g : Chronicle) (l : Loop) (a : Address) : (g.join l a).queued a = [] :=
  Function.update_self ..

theorem before_join_self (g : Chronicle) (l : Loop) (a : Address) :
    (g.join l a).before a = (l.dispatched a).length :=
  Function.update_self ..

theorem queued_join_of_ne {a b : Address} (h : b ≠ a) (g : Chronicle) (l : Loop) :
    (g.join l a).queued b = g.queued b :=
  Function.update_of_ne h ..

theorem before_join_of_ne {a b : Address} (h : b ≠ a) (g : Chronicle) (l : Loop) :
    (g.join l a).before b = g.before b :=
  Function.update_of_ne h ..

/-- A frame is queued for some connections. -/
def queue (g : Chronicle) (who : Address → Bool) (bytes : Bytes) : Chronicle :=
  { g with queued := fun b => if who b then g.queued b ++ [bytes] else g.queued b }

/-- A command queues its frame for those it is meant for, as far as they are connected. -/
def perform (g : Chronicle) (l : Loop) : Command → Chronicle
  | .send a bytes => g.queue (fun b => b == a && l.stands b) bytes
  | .broadcast bytes => g.queue l.stands bytes
  | .close _ | .shutdown => g

/-- Commands are carried out one after the other, up to one to shut down. -/
def performAll (g : Chronicle) (l : Loop) (s : Streams) : List Command → Chronicle
  | [] | .shutdown :: _ => g
  | c :: rest => performAll (g.perform l c) (l.perform s c) s rest

def part (g : Chronicle) (l : Loop) (s : Streams) : Loop.Phase → Chronicle
  | .accept => s.accepted.foldl (fun g a => g.join l a) g
  | .heartbeats => if l.isDue s then g.queue l.stands Loop.heartbeatBytes else g
  | .read | .write | .idle | .publish | .close => g

end Chronicle

/-- A loop, and what has happened to its connections. -/
structure Watched where
  loop : Loop
  chronicle : Chronicle

/-- Operations of a loop. Between them somebody may ask for something. -/
inductive Operation
  | ask (c : Command)
  | commands (s : Streams)
  | part (p : Loop.Phase) (s : Streams)

namespace Operation

def step (w : Watched) : Operation → Watched
  | ask c => { w with loop := w.loop.withQueue (w.loop.net.queue ++ [c]) }
  | commands s => ⟨w.loop.handleCommands s, w.chronicle.performAll w.loop s w.loop.net.queue⟩
  | part p s => ⟨p.run s w.loop, w.chronicle.part w.loop s p⟩

/-- The operations of a round. -/
def round (s : Streams) : List Operation :=
  [part .accept s, commands s, part .heartbeats s, part .read s, part .write s, part .idle s,
    part .publish s]

end Operation

namespace Watched

/-- A loop that has just been set up. -/
def start (net : Network) (now : Nat) : Watched := ⟨.new net now, .empty⟩

def run (w : Watched) (ops : List Operation) : Watched := ops.foldl Operation.step w

/-- The messages that have come from an address since its connection was added. -/
def decoded (w : Watched) (a : Address) : List Message :=
  (w.loop.dispatched a).drop (w.chronicle.before a)

theorem run_round (w : Watched) (s : Streams) :
    (w.run (Operation.round s)).loop = w.loop.poll s := by
  simp only [run, Operation.round, List.foldl_cons, List.foldl_nil, Operation.step, Loop.Phase.run,
    Loop.poll]

end Watched

/-- Decoding counts the messages, and marks the connection if there are any. -/
theorem Connection.decodeFor_counts (config : NetworkConfig) (now rounds : Nat) (c : Connection) :
    let r := decodeFor config now rounds c
    (∀ n, c.info.received = n % UInt64.size →
      r.1.info.received = (n + r.2.1.length) % UInt64.size) ∧
      (r.1.dirty = false → c.dirty = false ∧ r.1.info = c.info) := by
  fun_induction decodeFor config now rounds c with
  | case5 c rounds frame decoder hnext c' m hm c'' ms e heq ih =>
    rw [heq] at ih
    obtain ⟨hreceived, hmarked⟩ := ih
    refine ⟨fun n hn => ?_, fun hclean => ?_⟩
    · have hcount : (c'.countReceived now).info.received = (n + 1) % UInt64.size :=
        (congrArg ConnectionInfo.count hn).trans (ConnectionInfo.count_mod n)
      rw [hreceived (n + 1) hcount, Nat.add_right_comm]
      rfl
    · exact absurd (hmarked hclean).1 Bool.noConfusion
  | _ => exact ⟨fun _ hn => hn, fun hclean => ⟨hclean, rfl⟩⟩

/-! ## What the table says -/

/-- The table and the connections have the same addresses, the table knows the latest of every
connection that is not marked, and the counters count what has happened. -/
structure Truthful (l : Loop) (g : Chronicle) : Prop where
  distinct : l.addresses.Nodup
  entries : l.net.table.addresses.Nodup
  connected : ∀ a, a ∈ l.net.table.addresses ↔ a ∈ l.addresses
  known : ∀ c ∈ l.connections, c.dirty = false →
    l.net.table.get? c.info.address = some c.info
  sent : ∀ c ∈ l.connections, c.info.sent = (g.queued c.info.address).length % UInt64.size
  received : ∀ c ∈ l.connections, ∃ n,
    (l.dispatched c.info.address).length = g.before c.info.address + n ∧
      c.info.received = n % UInt64.size

namespace Truthful

variable {l : Loop} {g : Chronicle}

/-- An address has one connection at most. -/
theorem eq_of_get? (h : Truthful l g) {c d : Connection} (hc : c ∈ l.connections)
    (hget : l.get? c.info.address = some d) : c = d :=
  List.inj_on_of_nodup_map h.distinct hc (List.mem_of_find?_eq_some hget)
    (Loop.get?_address hget).symm

theorem stands (_ : Truthful l g) {c : Connection} (hc : c ∈ l.connections) :
    l.stands c.info.address = true :=
  (l.mem_addresses_iff _).mp (List.mem_map_of_mem hc)

/-- A change of the connections of which the table is told nothing. -/
theorem change (h : Truthful l g) {l' : Loop} {g' : Chronicle} {f : Connection → Connection}
    (htable : l'.net.table = l.net.table) (hconnections : l'.connections = l.connections.map f)
    (haddress : ∀ c, (f c).info.address = c.info.address)
    (hmarked : ∀ c ∈ l.connections, (f c).dirty = false → c.dirty = false ∧ (f c).info = c.info)
    (hsent : ∀ c ∈ l.connections,
      (f c).info.sent = (g'.queued c.info.address).length % UInt64.size)
    (hreceived : ∀ c ∈ l.connections, ∃ n,
      (l'.dispatched c.info.address).length = g'.before c.info.address + n ∧
        (f c).info.received = n % UInt64.size) : Truthful l' g' := by
  have haddresses : l'.addresses = l.addresses := by
    rw [Loop.addresses, hconnections, List.map_map]
    exact List.map_congr_left fun c _ => haddress c
  refine ⟨haddresses ▸ h.distinct, htable ▸ h.entries, ?_, ?_, ?_, ?_⟩
  · rw [haddresses, htable]
    exact h.connected
  all_goals
    rw [hconnections]
    intro c' hc'
    obtain ⟨c, hc, rfl⟩ := List.mem_map.mp hc'
    rw [haddress]
  · intro hclean
    obtain ⟨hold, hinfo⟩ := hmarked c hc hclean
    rw [htable, hinfo]
    exact h.known c hc hold
  · exact hsent c hc
  · exact hreceived c hc

/-- What neither the table nor the connections notice. -/
theorem congr (h : Truthful l g) {l' : Loop} (htable : l'.net.table = l.net.table)
    (hconnections : l'.connections = l.connections) (heffects : l'.effects = l.effects) :
    Truthful l' g := by
  refine h.change (f := id) htable (by rw [hconnections, List.map_id]) (fun _ => rfl)
    (fun _ _ hclean => ⟨hclean, rfl⟩) h.sent ?_
  unfold Loop.dispatched
  rw [heffects]
  exact h.received

/-- A frame is queued for some of the connections. -/
theorem queue (h : Truthful l g) {l' : Loop} (who : Address → Bool) (bytes : Bytes)
    (htable : l'.net.table = l.net.table) (heffects : l'.effects = l.effects)
    (hconnections : l'.connections =
      l.connections.map fun c => if who c.info.address then c.enqueue bytes else c) :
    Truthful l' (g.queue who bytes) := by
  refine h.change htable hconnections ?_ ?_ ?_ ?_
  · intro c
    split <;> rfl
  · intro c _ hclean
    split at hclean
    · cases hclean
    · rename_i hwho
      rw [if_neg hwho]
      exact ⟨hclean, rfl⟩
  · intro c hc
    have hsent := h.sent c hc
    by_cases hwho : who c.info.address = true
    · simp [Chronicle.queue, hwho, Connection.enqueue, hsent, ConnectionInfo.count_mod]
    · simp [Chronicle.queue, hwho, hsent]
  · intro c hc
    obtain ⟨n, hdispatched, hn⟩ := h.received c hc
    unfold Loop.dispatched at hdispatched ⊢
    rw [heffects]
    refine ⟨n, hdispatched, ?_⟩
    split <;> exact hn

/-- Messages come from one of the connections, and bytes are written to it. -/
theorem put (h : Truthful l g) {a : Address} {c d : Connection} (hget : l.get? a = some c)
    (haddress : d.info.address = a)
    (hmarked : d.dirty = false → c.dirty = false ∧ d.info = c.info)
    (hsent : d.info.sent = c.info.sent) {es : List Effect}
    (hreceived : ∀ n, c.info.received = n % UInt64.size →
      d.info.received = (n + (es.flatMap (Effect.dispatchedFrom a)).length) % UInt64.size)
    (hothers : ∀ b, b ≠ a → es.flatMap (Effect.dispatchedFrom b) = []) :
    Truthful ((l.put d).emit es) g := by
  let f : Connection → Connection := fun e => if e.info.address == d.info.address then d else e
  have hself {e : Connection} (ha : e.info.address = a) : f e = d := by
    simp only [f, ha, haddress, beq_self_eq_true, if_true]
  have hother {e : Connection} (ha : e.info.address ≠ a) : f e = e := by
    simp only [f, haddress, beq_eq_false_iff_ne.mpr ha, Bool.false_eq_true, if_false]
  refine h.change (f := f) rfl rfl ?_ ?_ ?_ ?_
  · intro e
    by_cases ha : e.info.address = a
    · rw [hself ha, haddress, ha]
    · rw [hother ha]
  all_goals
    intro e he
    by_cases ha : e.info.address = a
  · obtain rfl := h.eq_of_get? he (ha ▸ hget)
    rw [hself ha]
    exact hmarked
  · rw [hother ha]
    exact fun hclean => ⟨hclean, rfl⟩
  · obtain rfl := h.eq_of_get? he (ha ▸ hget)
    rw [hself ha, hsent]
    exact h.sent e he
  · rw [hother ha]
    exact h.sent e he
  all_goals
    have hdispatched : ((l.put d).emit es).dispatched e.info.address =
        l.dispatched e.info.address ++ es.flatMap (Effect.dispatchedFrom e.info.address) :=
      List.flatMap_append
    obtain ⟨n, hlength, hn⟩ := h.received e he
    rw [hdispatched, List.length_append, hlength]
  · obtain rfl := h.eq_of_get? he (ha ▸ hget)
    rw [hself ha, ha, Nat.add_assoc]
    exact ⟨_, rfl, hreceived n hn⟩
  · rw [hother ha, hothers _ ha]
    exact ⟨n, rfl, hn⟩

/-- A connection is removed, with its entry. -/
theorem remove (h : Truthful l g) (a : Address) : Truthful (l.remove a) g := by
  cases hget : l.get? a with
  | none =>
    rw [Loop.remove, hget]
    exact h
  | some c =>
    let l' : Loop := { l with
      net := { l.net with table := l.net.table.erase a }
      connections := l.connections.filter (·.info.address != a) }.emit [.close a]
    have haddresses : l'.addresses = l.addresses.filter (· != a) := by
      simp only [l', Loop.addresses, Loop.emit, List.filter_map]
      rfl
    have hdispatched (b : Address) : l'.dispatched b = l.dispatched b := by
      simp [l', Loop.dispatched, Loop.emit, Effect.dispatchedFrom]
    have hgone : Truthful l' g := by
      refine ⟨?_, ?_, ?_, ?_, ?_, ?_⟩
      · rw [haddresses]
        exact h.distinct.filter _
      · show (l.net.table.erase a).addresses.Nodup
        rw [ConnectionTable.addresses_erase]
        exact h.entries.filter _
      · intro b
        show b ∈ (l.net.table.erase a).addresses ↔ _
        rw [ConnectionTable.addresses_erase, haddresses, List.mem_filter, List.mem_filter,
          h.connected]
      all_goals
        intro d hd
        obtain ⟨hmem, hne⟩ := List.mem_filter.mp hd
      · intro hclean
        show (l.net.table.erase a).get? _ = _
        rw [ConnectionTable.get?_erase_of_ne (Ne.symm (bne_iff_ne.mp hne))]
        exact h.known d hmem hclean
      · exact h.sent d hmem
      · rw [hdispatched]
        exact h.received d hmem
    -- the journal is all that losing the server adds
    rw [Loop.remove, hget]
    dsimp only
    split <;> exact hgone.congr rfl rfl rfl

/-- A connection is added, in the place of any other to its address. -/
theorem add (h : Truthful l g) (now : Nat) (a : Address) :
    Truthful (l.add now a) (g.join l a) := by
  have hmem {c : Connection} (hc : c ∈ (l.add now a).connections) :
      c ∈ l.connections ∧ c.info.address ≠ a ∨ c = .new a now l.net.config.maxFrame := by
    simpa [Loop.add] using hc
  have haddresses : (l.add now a).addresses = l.addresses.filter (· != a) ++ [a] := by
    rw [Loop.addresses, Loop.add, List.map_append, Loop.addresses, List.filter_map]
    rfl
  refine ⟨Loop.nodup_addresses_add h.distinct now a, ConnectionTable.nodup_put h.entries, ?_, ?_,
    ?_, ?_⟩
  · intro b
    show b ∈ (l.net.table.put (.new a now)).addresses ↔ _
    rw [ConnectionTable.mem_addresses_put, h.connected, haddresses, List.mem_append,
      List.mem_filter, List.mem_singleton, bne_iff_ne]
    by_cases hb : b = a <;> simp [hb, ConnectionInfo.new]
  all_goals
    intro c hc
    rcases hmem hc with ⟨hold, hne⟩ | rfl
  · intro hclean
    exact (ConnectionTable.get?_put ..).trans ((if_neg hne.symm).trans (h.known c hold hclean))
  · intro _
    exact (ConnectionTable.get?_put ..).trans (if_pos rfl)
  · rw [Chronicle.queued_join_of_ne hne]
    exact h.sent c hold
  · exact (congrArg (List.length · % UInt64.size) (g.queued_join_self l a)).symm
  · rw [Chronicle.before_join_of_ne hne]
    exact h.received c hold
  · exact ⟨0, (g.before_join_self l a).symm, rfl⟩

theorem get?_publish (h : Truthful l g) {c : Connection} (hc : c ∈ l.connections) :
    l.publish.net.table.get? c.info.address = some c.info := by
  have hsub := List.filter_sublist (p := fun c : Connection => c.dirty) (l := l.connections)
  have hdistinct : ((l.connections.filter (·.dirty)).map (·.info.address)).Nodup :=
    h.distinct.sublist (hsub.map _)
  cases hdirty : c.dirty with
  | true => exact ConnectionTable.get?_foldl_put hdistinct (List.mem_filter.mpr ⟨hc, hdirty⟩) _
  | false =>
    refine (ConnectionTable.get?_foldl_put_of_not_mem ?_ _).trans (h.known c hc hdirty)
    intro hmem
    obtain ⟨d, hd, hsame⟩ := List.mem_map.mp hmem
    obtain rfl : d = c :=
      List.inj_on_of_nodup_map h.distinct (List.mem_of_mem_filter hd) hc hsame
    rw [(List.mem_filter.mp hd).2] at hdirty
    cases hdirty

/-- The table is told about all connections that are marked. -/
theorem publish (h : Truthful l g) : Truthful l.publish g := by
  have haddresses : l.publish.addresses = l.addresses := by
    rw [Loop.addresses, Loop.publish, List.map_map]
    rfl
  have htable : l.publish.net.table.addresses = l.net.table.addresses := by
    refine ConnectionTable.addresses_foldl_put fun c hc => ?_
    exact (h.connected _).mpr (List.mem_map_of_mem (List.mem_of_mem_filter hc))
  refine ⟨haddresses ▸ h.distinct, htable ▸ h.entries, ?_, ?_, ?_, ?_⟩
  · rw [haddresses, htable]
    exact h.connected
  all_goals
    intro c' hc'
    obtain ⟨c, hc, rfl⟩ := List.mem_map.mp hc'
  · have hget := h.get?_publish hc
    exact fun _ => hget
  · exact h.sent c hc
  · exact h.received c hc

theorem clear (l : Loop) (g : Chronicle) :
    Truthful { l with net := { l.net with table := [] }, connections := [] } g :=
  ⟨List.nodup_nil, List.nodup_nil, fun _ => Iff.rfl, nofun, nofun, nofun⟩

/-! ### The operations -/

theorem readOne (h : Truthful l g) (s : Streams) (a : Address) : Truthful (l.readOne s a).1 g := by
  cases hget : l.get? a with
  | none =>
    rw [Loop.readOne, hget]
    exact h
  | some c =>
    obtain ⟨decoder, rounds, heq⟩ := Loop.readOne_decoded hget s
    obtain ⟨-, hsent, haddress⟩ :=
      Connection.decodeFor_frame l.net.config s.now rounds { c with decoder := decoder }
    obtain ⟨hreceived, hmarked⟩ :=
      Connection.decodeFor_counts l.net.config s.now rounds { c with decoder := decoder }
    generalize Connection.decodeFor l.net.config s.now rounds { c with decoder := decoder } = r
      at heq hsent haddress hreceived hmarked
    have hfrom (b : Address) := Loop.flatMap_dispatchedFrom_dispatch a b r.2.1
    have hc : c.info.address = a := Loop.get?_address hget
    rw [heq]
    refine h.put hget (haddress.trans hc) hmarked hsent ?_ fun b hb => ?_
    · rw [hfrom, if_pos rfl]
      exact hreceived
    · rw [hfrom, if_neg hb.symm]

theorem flushOne (h : Truthful l g) (s : Streams) (a : Address) :
    Truthful (l.flushOne s a).1 g := by
  cases hget : l.get? a with
  | none =>
    rw [Loop.flushOne, hget]
    exact h
  | some c =>
    rw [Loop.flushOne_fst hget]
    refine h.put hget (Loop.flush_address hget _) ?_ ?_ ?_ fun _ _ => rfl
    all_goals rw [Connection.flush_eq]
    · exact fun hclean => ⟨hclean, rfl⟩
    · exact fun _ hn => hn

theorem enqueueAll (h : Truthful l g) (bytes : Bytes) :
    Truthful (l.enqueueAll bytes) (g.queue l.stands bytes) := by
  refine h.queue l.stands bytes rfl rfl (List.map_congr_left fun c hc => ?_)
  rw [if_pos (h.stands hc)]

theorem perform (h : Truthful l g) (s : Streams) (c : Command) :
    Truthful (l.perform s c) (g.perform l c) := by
  cases c with
  | send a bytes =>
    cases hget : l.get? a with
    | none =>
      rw [Loop.perform_send_of_none hget]
      refine h.queue _ bytes rfl rfl ((List.map_id _).symm.trans (List.map_congr_left fun c hc => ?_))
      have hne : c.info.address ≠ a := by
        rintro rfl
        have hstands := h.stands hc
        rw [Loop.stands, hget] at hstands
        cases hstands
      simp [hne]
    | some d =>
      have hd : d.info.address = a := Loop.get?_address hget
      rw [Loop.perform_send_of_some hget]
      refine h.queue _ bytes rfl rfl (List.map_congr_left fun c hc => ?_)
      by_cases hc' : c.info.address = a
      · obtain rfl := h.eq_of_get? hc (hc' ▸ hget)
        have hstands := h.stands hc
        rw [hc'] at hstands
        simp [hd, hstands, Connection.enqueue]
      · simp [hc', hd, Connection.enqueue]
  | broadcast bytes => exact h.enqueueAll bytes
  | close a => exact (h.flushOne s a).remove a
  | shutdown => exact h

theorem performAll (h : Truthful l g) (s : Streams) (cs : List Command) :
    Truthful (l.performAll s cs) (g.performAll l s cs) := by
  induction cs generalizing l g with
  | nil => exact h.congr rfl rfl rfl
  | cons c cs ih =>
    cases c with
    | shutdown => exact h.congr rfl rfl rfl
    | send a bytes => exact ih (h.perform s (.send a bytes))
    | broadcast bytes => exact ih (h.perform s (.broadcast bytes))
    | close a => exact ih (h.perform s (.close a))

theorem accept (h : Truthful l g) (s : Streams) :
    Truthful (l.accept s) (s.accepted.foldl (fun g a => g.join l a) g) := by
  -- adding dispatches nothing, so the chronicle can look at the loop as it was
  have hall (as : List Address) (l' : Loop) (g : Chronicle) (heffects : l'.effects = l.effects)
      (h : Truthful l' g) : Truthful (as.foldl (fun l a => l.add s.now a) l')
        (as.foldl (fun g a => g.join l a) g) := by
    induction as generalizing l' g with
    | nil => exact h
    | cons a as ih =>
      have hjoin : g.join l' a = g.join l a := by
        unfold Chronicle.join Loop.dispatched
        rw [heffects]
      exact ih (l'.add s.now a) (g.join l a) heffects (hjoin ▸ h.add s.now a)
  exact hall s.accepted l g rfl h

theorem part (h : Truthful l g) (s : Streams) (p : Loop.Phase) :
    Truthful (p.run s l) (g.part l s p) := by
  have hall {f : Loop → Address → Loop × Bool}
      (hf : ∀ l a, Truthful l g → Truthful (f l a).1 g) : Truthful (l.forEach f) g :=
    Loop.forEach_induct (P := fun l => Truthful l g) hf (fun _ a h => h.remove a) h
  cases p with
  | accept => exact h.accept s
  | heartbeats =>
    simp only [Loop.Phase.run, Chronicle.part, Loop.sendHeartbeats_eq]
    split
    · have hdue : Truthful { l with lastHeartbeat := s.now } g := h.congr rfl rfl rfl
      exact hdue.enqueueAll Loop.heartbeatBytes
    · exact h
  | read => exact hall (fun _ a h => h.readOne s a)
  | write => exact hall (fun _ a h => h.flushOne s a)
  | idle =>
    simp only [Loop.Phase.run, Loop.dropIdle]
    split
    · exact h
    · exact Loop.foldl_induct (P := fun l => Truthful l g) (fun _ a h => h.remove a) _ h
  | publish => exact h.publish
  | close => exact clear _ g

theorem step {w : Watched} (h : Truthful w.loop w.chronicle) (op : Operation) :
    Truthful (op.step w).loop (op.step w).chronicle := by
  cases op with
  | ask c => exact h.congr rfl rfl rfl
  | commands s => exact h.performAll s w.loop.net.queue
  | part p s => exact h.part s p

end Truthful

theorem truthful_start (net : Network) (now : Nat) :
    Truthful (Watched.start net now).loop (Watched.start net now).chronicle := by
  -- nothing has been dispatched yet, so the chronicle of a new connection is empty, too
  have hall (as : List Address) (l : Loop) (heffects : l.effects = [])
      (h : Truthful l .empty) : Truthful (as.foldl (fun l a => l.add now a) l) .empty := by
    induction as generalizing l with
    | nil => exact h
    | cons a as ih =>
      have hjoin : Chronicle.empty.join l a = .empty := by
        simp only [Chronicle.join, Chronicle.empty, Loop.dispatched, heffects, List.flatMap_nil,
          List.length_nil, Function.update_eq_self]
      exact ih (l.add now a) heffects (hjoin ▸ h.add now a)
  exact hall _ _ rfl ⟨List.nodup_nil, List.nodup_nil, fun _ => Iff.rfl, nofun, nofun, nofun⟩

theorem truthful_run {w : Watched} (h : Truthful w.loop w.chronicle) (ops : List Operation) :
    Truthful (w.run ops).loop (w.run ops).chronicle := by
  induction ops generalizing w with
  | nil => exact h
  | cons op ops ih => exact ih (h.step op)

/-- After any operations the table has exactly the addresses of the connections, each once, and the
latest of each connection that is not marked. After a round more it has the latest of all
connections, and that is how many frames were queued for it and how many messages have come from it
since it was added, as far as the counters go. -/
theorem published_table_truthful (net : Network) (now : Nat) (ops : List Operation) (s : Streams) :
    let w := (Watched.start net now).run ops
    let w' := w.run (Operation.round s)
    (w.loop.net.table.addresses.Perm w.loop.addresses ∧ w.loop.addresses.Nodup ∧
      ∀ a, w.loop.net.isConnected a = w.loop.stands a) ∧
    (∀ c ∈ w.loop.connections, c.dirty = false →
      w.loop.net.table.get? c.info.address = some c.info) ∧
    w'.loop = w.loop.poll s ∧
    ∀ c ∈ w'.loop.connections, w'.loop.net.table.get? c.info.address = some c.info ∧
      c.info.sent = (w'.chronicle.queued c.info.address).length % UInt64.size ∧
      c.info.received = (w'.decoded c.info.address).length % UInt64.size := by
  intro w w'
  have h : Truthful w.loop w.chronicle := truthful_run (truthful_start net now) ops
  have h' : Truthful w'.loop w'.chronicle := truthful_run h (Operation.round s)
  have hround : w'.loop = w.loop.poll s := w.run_round s
  refine ⟨⟨?_, h.distinct, fun a => ?_⟩, h.known, hround, fun c hc => ⟨?_, h'.sent c hc, ?_⟩⟩
  · exact (List.perm_ext_iff_of_nodup h.entries h.distinct).mpr h.connected
  · rw [Bool.eq_iff_iff, ← Loop.mem_addresses_iff, ← h.connected]
    exact ConnectionTable.contains_iff_mem
  · -- the round ends with telling the table, which leaves no marks
    have hclean : c.dirty = false := by
      rw [hround, Loop.poll] at hc
      obtain ⟨d, -, rfl⟩ := List.mem_map.mp hc
      rfl
    exact h'.known c hc hclean
  · obtain ⟨n, hlength, hn⟩ := h'.received c hc
    rw [Watched.decoded, List.length_drop, hlength, Nat.add_sub_cancel_left]
    exact hn

end Parley
