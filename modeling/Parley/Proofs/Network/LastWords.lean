import Parley.Proofs.Network.Delivery
import Parley.Proofs.Network.Published

/-!
# What came before a connection ended

A round of reads takes in what a stream yields, until nothing is left, the stream is at its end or a
read fails. What is whole by then is dispatched, but not if a read fails.

- `NetworkConfig.messagesIn`: the messages that some bytes hold, up to the first bad frame.
  `NetworkConfig.Understood` says that a decoder has given all of them.
- `Loop.readAll_spec`: what a round of reads does for one connection.
- `Overheard`: a loop, and the bytes that were read from each address since its connection was
  added. `Overheard.Hears.step` is an operation, `Overheard.hears_run` any number of them.
- `Overheard.heard_out_iff`: all messages that were read have been dispatched, whether the
  connection goes on or ends, unless a read fails.
-/

namespace Parley

/-! ## The messages among some bytes -/

namespace NetworkConfig

/-- A frame read as a message. -/
def readFrame (config : NetworkConfig) (frame : Frame) : Except Error Message :=
  Message.ofFrame config.features config.encoding config.maxFrame frame

/-- The messages of frames, up to the first frame that cannot be read. -/
def messagesOf (config : NetworkConfig) : List Frame → List Message
  | [] => []
  | frame :: frames =>
    match config.readFrame frame with
    | .ok m => m :: messagesOf config frames
    | .error _ => []

/-- The messages of the frames that are whole among some bytes, up to the first frame that is too
long or cannot be read. -/
def messagesIn (config : NetworkConfig) (bytes : Bytes) : List Message :=
  config.messagesOf ((FrameDecoder.new config.maxFrame).extend bytes).drain.1

/-- A decoder has given all messages among the bytes that it got, and has found no bad frame. -/
def Understood (config : NetworkConfig) (bytes : Bytes) (ms : List Message) (d : FrameDecoder) :
    Prop :=
  ∃ frames, FrameDecoder.Draining ((FrameDecoder.new config.maxFrame).extend bytes) frames none d ∧
    frames.map config.readFrame = ms.map .ok

variable {config : NetworkConfig}

theorem messagesOf_append {frames : List Frame} {ms : List Message}
    (h : frames.map config.readFrame = ms.map .ok) (more : List Frame) :
    config.messagesOf (frames ++ more) = ms ++ config.messagesOf more := by
  induction frames generalizing ms with
  | nil =>
    obtain rfl := List.map_eq_nil_iff.mp h.symm
    rfl
  | cons frame frames ih =>
    obtain ⟨m, ms, rfl⟩ : ∃ m ms', ms = m :: ms' := by
      cases ms with
      | nil => cases h
      | cons m ms => exact ⟨m, ms, rfl⟩
    obtain ⟨hm, hms⟩ := List.cons.inj h
    simp only [List.cons_append, messagesOf, hm, ih hms]

theorem Understood.start (config : NetworkConfig) :
    config.Understood [] [] (.new config.maxFrame) :=
  ⟨[], .empty rfl, rfl⟩

theorem Understood.messagesIn {bytes : Bytes} {ms : List Message} {d : FrameDecoder}
    (h : config.Understood bytes ms d) : config.messagesIn bytes = ms := by
  obtain ⟨frames, hdrain, hread⟩ := h
  have hall := messagesOf_append hread []
  rw [List.append_nil, messagesOf, List.append_nil] at hall
  rw [NetworkConfig.messagesIn, FrameDecoder.drain_eq_iff.mpr hdrain, hall]

end NetworkConfig

/-- Decoding gives the messages of the frames that are in the decoder. If none of the frames is bad,
the decoder is left with what is no whole frame. -/
theorem Connection.decodeFor_draining (config : NetworkConfig) (now : Nat) {rounds : Nat}
    {c : Connection} (hrounds : c.decoder.buffered < rounds) :
    let r := decodeFor config now rounds c
    ∃ frames outcome last, FrameDecoder.Draining c.decoder frames outcome last ∧
      r.2.1 = config.messagesOf frames ∧
      (r.2.2 = none → outcome = none ∧ r.1.decoder = last ∧
        frames.map config.readFrame = r.2.1.map .ok) := by
  induction rounds generalizing c with
  | zero => exact absurd hrounds (Nat.not_lt_zero _)
  | succ rounds ih =>
    unfold decodeFor
    cases hnext : c.decoder.next with
    | error e => exact ⟨[], some e, c.decoder, .broken hnext, rfl,
      fun hnone => absurd hnone (Option.some_ne_none e)⟩
    | ok taken =>
      cases taken with
      | none => exact ⟨[], none, c.decoder, .empty hnext, rfl, fun _ => ⟨rfl, rfl, rfl⟩⟩
      | some p =>
        obtain ⟨frame, decoder⟩ := p
        have hshorter := FrameDecoder.length_lt_of_next hnext
        cases hread : config.readFrame frame with
        | error e =>
          -- what stands behind a frame that cannot be read does not matter any more
          refine ⟨frame :: decoder.drain.1, _, _, .frame hnext decoder.draining_drain, ?_, ?_⟩
          all_goals
            unfold NetworkConfig.readFrame at hread
            simp only [hread]
          · simp only [NetworkConfig.messagesOf, NetworkConfig.readFrame, hread]
          · exact fun hnone => absurd hnone (Option.some_ne_none e)
        | ok m =>
          let c' : Connection := countReceived { c with decoder := decoder } now
          have hless : c'.decoder.buffered < rounds := by
            show decoder.buffer.length < rounds
            unfold FrameDecoder.buffered at hrounds
            omega
          obtain ⟨frames, outcome, last, hdrain, hms, hgood⟩ := ih hless
          refine ⟨frame :: frames, outcome, last, .frame hnext hdrain, ?_, ?_⟩
          all_goals
            have hread' := hread
            unfold NetworkConfig.readFrame at hread'
            simp only [hread']
          · rw [NetworkConfig.messagesOf, hread, hms]
          · intro hnone
            obtain ⟨houtcome, hlast, hmap⟩ := hgood hnone
            exact ⟨houtcome, hlast, by rw [List.map_cons, List.map_cons, hread, hmap]⟩

/-- More bytes come, and are decoded. -/
theorem NetworkConfig.Understood.decode {config : NetworkConfig} {bytes : Bytes} {ms : List Message}
    {c : Connection} (h : config.Understood bytes ms c.decoder) (more : Bytes) (now : Nat) :
    let r := Connection.decode config now { c with decoder := c.decoder.extend more }
    config.messagesIn (bytes ++ more) = ms ++ r.2.1 ∧
      (r.2.2 = none → config.Understood (bytes ++ more) (ms ++ r.2.1) r.1.decoder) := by
  intro r
  obtain ⟨frames, hdrain, hread⟩ := h
  obtain ⟨frames', outcome, last, hdrain', hms, hgood⟩ := Connection.decodeFor_draining config now
    (c := { c with decoder := c.decoder.extend more }) (Nat.lt_succ_self _)
  have hall := hdrain.extend hdrain'
  rw [FrameDecoder.extend_extend] at hall
  refine ⟨?_, fun hnone => ?_⟩
  · rw [NetworkConfig.messagesIn, FrameDecoder.drain_eq_iff.mpr hall, messagesOf_append hread,
      ← hms]
    rfl
  · obtain ⟨rfl, rfl, hmap⟩ := hgood hnone
    exact ⟨frames ++ frames', hall, by rw [List.map_append, List.map_append, hread, hmap]; rfl⟩

/-! ## A round of reads -/

/-- Whether an outcome is a failure. -/
def ReadOutcome.isFailure : ReadOutcome → Bool
  | .failed _ => true
  | _ => false

/-- Whether the reads that a round makes of a stream end with one that fails. -/
def Connection.breaks (reads : Nat) (outcomes : List ReadOutcome) : Bool :=
  ((outcomes.take reads).dropWhile ReadOutcome.goesOn).head?.any ReadOutcome.isFailure

theorem Connection.breaks_iff (reads : Nat) (outcomes : List ReadOutcome) (c : Connection) :
    breaks reads outcomes = true ↔ ∃ fault, (readFor reads outcomes c).2 = .failed fault := by
  fun_induction readFor reads outcomes c with
  | case5 n c rest bytes hbytes ih =>
    have hgoesOn : (ReadOutcome.data bytes).goesOn = true := by
      cases bytes with
      | nil => exact absurd rfl hbytes
      | cons b bs => rfl
    rw [← ih, breaks, breaks, List.take_succ_cons, List.dropWhile_cons_of_pos hgoesOn]
  | case7 n c rest ih => exact ih
  | case8 n c rest fault => exact ⟨fun _ => ⟨fault, rfl⟩, fun _ => rfl⟩
  | _ => simp [breaks, ReadOutcome.goesOn, ReadOutcome.isFailure]

namespace Loop

variable {b : Address}

/-- Where a connection goes on, no read failed and no frame was bad. -/
theorem readOne_goesOn {l : Loop} {c : Connection} (hget : l.get? b = some c) {s : Streams}
    (h : (l.readOne s b).2 = true) :
    (∀ fault, (c.readAvailable (s.reads b)).2 ≠ .failed fault) ∧
      ((c.readAvailable (s.reads b)).1.decode l.net.config s.now).2.2 = none := by
  unfold readOne at h
  rw [hget] at h
  dsimp only at h
  generalize (c.readAvailable (s.reads b)).1 = c₁ at h ⊢
  generalize (c.readAvailable (s.reads b)).2 = ending at h ⊢
  cases ending with
  | failed fault => cases h
  | closed => cases h
  | «open» => exact ⟨nofun, by simpa using h⟩

/-- Whether a connection goes on depends on no other. -/
theorem readOne_snd_congr {l l' : Loop} (hget : l'.get? b = l.get? b)
    (hconfig : l'.net.config = l.net.config) (s : Streams) :
    (l'.readOne s b).2 = (l.readOne s b).2 := by
  unfold readOne
  rw [hget, hconfig]
  cases l.get? b with
  | none => rfl
  | some c =>
    dsimp only
    split <;> rfl

theorem stands_remove_self (l : Loop) (b : Address) : (l.remove b).stands b = false := by
  cases hget : l.get? b with
  | none =>
    rw [remove, hget, stands, hget]
    rfl
  | some c =>
    have hgone := congrArg Option.isSome (get?_filter_self l b)
    rw [remove, hget]
    dsimp only
    split <;> exact hgone

/-- Of those that are removed none stands. -/
theorem stands_removeAll {as : List Address} (h : b ∈ as) (l : Loop) :
    (as.foldl remove l).stands b = false := by
  obtain ⟨before, after, rfl⟩ := List.append_of_mem h
  rw [List.foldl_append, List.foldl_cons]
  have hkeeps := keeps_removeAll (v := incoming) (b := b) after ((before.foldl remove l).remove b)
  cases hstands : ((after.foldl remove ((before.foldl remove l).remove b))).stands b with
  | false => rfl
  | true =>
    have hgone := stands_remove_self (before.foldl remove l) b
    rw [hkeeps.stands hstands] at hgone
    cases hgone

theorem mem_foldl_attend {f : Loop → Address → Loop × Bool} (as : List Address)
    {st : Loop × List Address} (h : b ∈ st.2) : b ∈ (as.foldl (attend f) st).2 := by
  induction as generalizing st with
  | nil => exact h
  | cons a as ih =>
    refine ih ?_
    unfold attend
    dsimp only
    split
    · exact h
    · exact List.mem_append_left _ h

/-- Who does not go on is removed once all were handled. -/
theorem stands_forEach {l : Loop} {f : Loop → Address → Loop × Bool} {before after : List Address}
    (hsplit : l.addresses = before ++ b :: after)
    (hflag : (f (before.foldl (fun l a => (f l a).1) l) b).2 = false) :
    (l.forEach f).stands b = false := by
  have hclosed : b ∈ (l.addresses.foldl (attend f) (l, [])).2 := by
    rw [hsplit, List.foldl_append, List.foldl_cons]
    refine mem_foldl_attend after ?_
    simp only [attend, foldl_attend_fst, hflag, Bool.false_eq_true, if_false]
    exact List.mem_append_right _ List.mem_cons_self
  exact stands_removeAll hclosed _

theorem stands_readAll {l : Loop} (hdistinct : l.addresses.Nodup) {s : Streams}
    (hflag : (l.readOne s b).2 = false) : (l.readAll s).stands b = false := by
  have hstands : l.stands b = true := by
    cases hget : l.get? b with
    | none =>
      rw [readOne, hget] at hflag
      cases hflag
    | some c => exact Option.isSome_iff_exists.mpr ⟨c, hget⟩
  obtain ⟨before, after, hsplit, hbefore, -⟩ := exists_split hdistinct hstands
  obtain ⟨hkeeps, hget⟩ := foldl_readOne_of_not_mem s hbefore l
  exact stands_forEach hsplit ((readOne_snd_congr hget hkeeps.config s).trans hflag)

/-- What a round of reads does for one connection: if a read fails, nothing is dispatched and the
connection is gone; otherwise what has been read is decoded, and the connection is gone if a frame
is bad. -/
theorem readAll_spec {l : Loop} (hdistinct : l.addresses.Nodup) {c : Connection}
    (hget : l.get? b = some c) (s : Streams) :
    let decoder := c.decoder.extend (l.takes s b)
    let r := Connection.decode l.net.config s.now { c with decoder := decoder }
    if Connection.breaks Connection.maxReads (s.reads b) then
      (l.readAll s).dispatched b = l.dispatched b ∧ (l.readAll s).stands b = false
    else
      (l.readAll s).dispatched b = l.dispatched b ++ r.2.1 ∧
        ∀ c', (l.readAll s).get? b = some c' → r.2.2 = none ∧ c'.decoder = r.1.decoder := by
  intro decoder r
  have htakes : l.takes s b = Connection.delivered Connection.maxReads (s.reads b) := by
    rw [takes, stands, hget]
    rfl
  have hread : (c.readAvailable (s.reads b)).1 = { c with decoder := decoder } := by
    simp only [decoder, htakes]
    exact c.readFor_eq Connection.maxReads (s.reads b)
  rcases readAll_once hdistinct s b with ⟨hnone, -⟩ | ⟨c₁, l₁, hget', hbefore, hget₁, hafter⟩
  · rw [hget] at hnone
    cases hnone
  obtain rfl : c = c₁ := Option.some.inj (hget.symm.trans hget')
  have hlog : l₁.dispatched b = l.dispatched b := hbefore.log
  have hlog' : (l.readAll s).dispatched b = (l₁.readOne s b).1.dispatched b := hafter.log
  have hbreaks := Connection.breaks_iff Connection.maxReads (s.reads b) c
  split
  · rename_i hfails
    obtain ⟨fault, hfailed⟩ := hbreaks.mp hfails
    refine ⟨?_, ?_⟩
    · rw [hlog', readOne_of_failed hget₁ hfailed]
      exact hlog
    · refine stands_readAll hdistinct (Bool.eq_false_iff.mpr fun hgoesOn => ?_)
      exact (readOne_goesOn hget hgoesOn).1 fault hfailed
  · rename_i hworks
    have hworks' : ∀ fault, (c.readAvailable (s.reads b)).2 ≠ .failed fault :=
      fun fault hfailed => hworks (hbreaks.mpr ⟨fault, hfailed⟩)
    have heq : (l₁.readOne s b).1 = (l₁.put r.1).emit (r.2.1.map fun m => .dispatch ⟨b, m⟩) := by
      rw [readOne_of_works hget₁ hworks', hread, hbefore.config]
    have haddress : r.1.info.address = b := by
      obtain ⟨-, -, hsame⟩ := Connection.decodeFor_frame l.net.config s.now (decoder.buffered + 1)
        { c with decoder := decoder }
      have hc : c.info.address = b := get?_address hget
      exact hsame.trans hc
    refine ⟨?_, fun c' hc' => ⟨?_, ?_⟩⟩
    · rw [hlog', heq]
      show (l₁.effects ++ _).flatMap (Effect.dispatchedFrom b) = _
      rw [List.flatMap_append, flatMap_dispatchedFrom_dispatch, if_pos rfl]
      exact congrArg (· ++ r.2.1) hlog
    · -- a connection that still stands goes on
      have hgoesOn : (l.readOne s b).2 = true := by
        cases hflag : (l.readOne s b).2 with
        | true => rfl
        | false =>
          have hgone := stands_readAll hdistinct hflag
          rw [stands, hc'] at hgone
          cases hgone
      have hnone := (readOne_goesOn hget hgoesOn).2
      rw [hread] at hnone
      exact hnone
    · obtain ⟨d, hd, hpart⟩ := hafter.part c' hc'
      have hfound : (l₁.readOne s b).1.get? b = some r.1 := by
        rw [heq]
        exact get?_put_self hget₁ haddress
      obtain rfl : d = r.1 := Option.some.inj (hd.symm.trans hfound)
      exact hpart

/-! ## Other parts of a round -/

theorem Keeps.withQueue {α β : Type} {v : Aspect α β} {l l' : Loop} (h : Keeps v b l l') :
    Keeps v b l (l'.withQueue l.net.queue) :=
  ⟨h.config, rfl, h.distinct, h.log, h.part⟩

/-- Commands take nothing in; all that they change besides is the queue. -/
theorem performAll_keeps_incoming (l : Loop) (s : Streams) (cs : List Command) :
    Keeps incoming b l ((l.performAll s cs).withQueue l.net.queue) := by
  induction cs generalizing l with
  | nil => exact Keeps.refl l
  | cons c cs ih =>
    have hgoesOn : Keeps incoming b l
        (((l.perform s c).performAll s cs).withQueue l.net.queue) := by
      have hrest := ih (l.perform s c)
      rw [perform_queue] at hrest
      exact (perform_keeps_incoming l s c).trans hrest
    cases c with
    | shutdown => exact Keeps.refl l
    | _ => exact hgoesOn

/-- Accepting connections only adds them. -/
theorem accept_adds (l : Loop) (s : Streams) :
    (l.accept s).net.config = l.net.config ∧ (l.accept s).effects = l.effects :=
  foldl_induct (P := fun l' => l'.net.config = l.net.config ∧ l'.effects = l.effects)
    (f := fun l a => l.add s.now a) (fun _ _ h => h) s.accepted ⟨rfl, rfl⟩

/-- The decoder of a connection that was just accepted is empty. -/
theorem decoder_of_accepted {s : Streams} (hb : b ∈ s.accepted) {l : Loop} {c : Connection}
    (hget : (l.accept s).get? b = some c) : c.decoder = .new l.net.config.maxFrame := by
  unfold accept at hget
  generalize s.accepted = as at hb hget
  induction as generalizing l with
  | nil => cases hb
  | cons a as ih =>
    by_cases hagain : b ∈ as
    · exact ih (l := l.add s.now a) hagain hget
    · obtain rfl : b = a := (List.mem_cons.mp hb).resolve_right hagain
      have hadded : (l.add s.now b).get? b = some (.new b s.now l.net.config.maxFrame) := by
        show (l.connections.filter _ ++ [_]).find? _ = _
        rw [List.find?_append, get?_filter_self]
        simp [Connection.new, ConnectionInfo.new]
      have hkeeps := keeps_accept (v := incoming) (s := { s with accepted := as }) hagain
        (l.add s.now b)
      obtain ⟨d, hd, hpart⟩ := hkeeps.part c hget
      obtain rfl : Connection.new b s.now l.net.config.maxFrame = d :=
        Option.some.inj (hadded.symm.trans hd)
      exact hpart

end Loop

theorem Chronicle.performAll_before (g : Chronicle) (l : Loop) (s : Streams) (cs : List Command) :
    (g.performAll l s cs).before = g.before := by
  induction cs generalizing g l with
  | nil => rfl
  | cons c cs ih => cases c <;> first | rfl | exact ih _ _

theorem Chronicle.accept_before (g : Chronicle) (l : Loop) (s : Streams) (b : Address) :
    (g.part l s .accept).before b =
      if b ∈ s.accepted then (l.dispatched b).length else g.before b := by
  show (s.accepted.foldl (fun g a => g.join l a) g).before b = _
  generalize s.accepted = as
  induction as generalizing g with
  | nil => rfl
  | cons a as ih =>
    rw [List.foldl_cons, ih]
    by_cases hb : b = a
    · subst hb
      simp [before_join_self]
    · simp [before_join_of_ne hb, hb]

/-! ## What has been read from each address -/

/-- A loop, what has happened to its connections, and what was read from them. -/
structure Overheard extends Watched where
  /-- The bytes that were read from an address since its connection was added. -/
  taken : Address → Bytes

/-- What has been read from each address, after an operation of the loop `l`. -/
def Operation.take (l : Loop) (taken : Address → Bytes) : Operation → Address → Bytes
  | part .accept s => fun b => if b ∈ s.accepted then [] else taken b
  | part .read s => fun b => taken b ++ l.takes s b
  | _ => taken

namespace Overheard

/-- A loop that has just been set up. -/
def start (net : Network) (now : Nat) : Overheard := ⟨.start net now, fun _ => []⟩

def step (w : Overheard) (op : Operation) : Overheard :=
  ⟨op.step w.toWatched, op.take w.loop w.taken⟩

def run (w : Overheard) (ops : List Operation) : Overheard := ops.foldl step w

/-- Nobody acts on what is overheard. -/
theorem run_toWatched (w : Overheard) (ops : List Operation) :
    (w.run ops).toWatched = w.toWatched.run ops := by
  induction ops generalizing w with
  | nil => rfl
  | cons op ops ih => exact ih (w.step op)

/-- As long as a connection stands, all messages among the bytes that were read from it have been
dispatched. -/
structure Hears (config : NetworkConfig) (b : Address) (w : Overheard) : Prop where
  understood : ∀ c, w.loop.get? b = some c →
    config.Understood (w.taken b) (w.decoded b) c.decoder
  config : w.loop.net.config = config

namespace Hears

variable {config : NetworkConfig} {b : Address} {w w' : Overheard}

/-- What takes nothing in. -/
theorem keep (h : Hears config b w)
    (hkeeps : Loop.Keeps Loop.incoming b w.loop (w'.loop.withQueue w.loop.net.queue))
    (hbefore : w'.chronicle.before b = w.chronicle.before b) (htaken : w'.taken b = w.taken b) :
    Hears config b w' := by
  have hdispatched : w'.loop.dispatched b = w.loop.dispatched b := hkeeps.log
  have hdecoded : w'.decoded b = w.decoded b := by
    rw [Watched.decoded, Watched.decoded, hdispatched, hbefore]
  refine ⟨fun c hc => ?_, hkeeps.config.trans h.config⟩
  obtain ⟨d, hd, hpart⟩ := hkeeps.part c hc
  have hdecoder : c.decoder = d.decoder := hpart
  rw [htaken, hdecoded, hdecoder]
  exact h.understood d hd

theorem accept (h : Hears config b w) (s : Streams) :
    Hears config b (w.step (.part .accept s)) := by
  by_cases hb : b ∈ s.accepted
  · -- whatever came from the address before came on another connection
    have hdecoded : (w.step (.part .accept s)).decoded b = [] := by
      show ((w.loop.accept s).dispatched b).drop _ = []
      rw [Loop.dispatched, (w.loop.accept_adds s).2, ← Loop.dispatched]
      refine List.drop_eq_nil_of_le (Nat.le_of_eq ?_)
      exact ((w.chronicle.accept_before w.loop s b).trans (if_pos hb)).symm
    have htaken : (w.step (.part .accept s)).taken b = [] := if_pos hb
    refine ⟨fun c hc => ?_, (w.loop.accept_adds s).1.trans h.config⟩
    rw [htaken, hdecoded, Loop.decoder_of_accepted hb hc, h.config]
    exact .start config
  · refine h.keep (Loop.keeps_accept hb w.loop).withQueue ?_ (if_neg hb)
    exact (w.chronicle.accept_before w.loop s b).trans (if_neg hb)

/-- What a round of reads dispatches: all that has come, unless a read fails. -/
theorem read_spec (h : Hears config b w) (ht : Truthful w.loop w.chronicle) {c : Connection}
    (hget : w.loop.get? b = some c) (s : Streams) :
    let w' := w.step (.part .read s)
    if Connection.breaks Connection.maxReads (s.reads b) then
      w'.decoded b = w.decoded b ∧ w'.loop.stands b = false
    else
      w'.decoded b = config.messagesIn (w'.taken b) ∧
        ∀ c', w'.loop.get? b = some c' →
          config.Understood (w'.taken b) (w'.decoded b) c'.decoder := by
  intro w'
  have hspec := Loop.readAll_spec ht.distinct hget s
  have hdecode := (h.understood c hget).decode (w.loop.takes s b) s.now
  have hbefore : w.chronicle.before b ≤ (w.loop.dispatched b).length := by
    have haddress := Loop.get?_address hget
    have hreceived := ht.received c (List.mem_of_find?_eq_some hget)
    rw [haddress] at hreceived
    omega
  rw [h.config] at hspec
  dsimp only at hspec hdecode
  split at hspec
  · rename_i hbreaks
    rw [if_pos hbreaks]
    exact ⟨congrArg (List.drop (w.chronicle.before b)) hspec.1, hspec.2⟩
  · rename_i hworks
    rw [if_neg hworks]
    obtain ⟨hdispatched, hgoesOn⟩ := hspec
    obtain ⟨hall, hunderstood⟩ := hdecode
    have hdecoded : w'.decoded b = w.decoded b ++ (Connection.decode config s.now
        { c with decoder := c.decoder.extend (w.loop.takes s b) }).2.1 := by
      show ((w.loop.readAll s).dispatched b).drop (w.chronicle.before b) = _
      rw [hdispatched, List.drop_append_of_le_length hbefore]
      rfl
    refine ⟨hdecoded.trans hall.symm, fun c' hc' => ?_⟩
    obtain ⟨hnone, hdecoder⟩ := hgoesOn c' hc'
    rw [hdecoded, hdecoder]
    exact hunderstood hnone

theorem read (h : Hears config b w) (ht : Truthful w.loop w.chronicle) (s : Streams) :
    Hears config b (w.step (.part .read s)) := by
  cases hget : w.loop.get? b with
  | none =>
    -- what is not connected has nothing to read
    rcases Loop.readAll_once ht.distinct s b with ⟨-, hkeeps⟩ | ⟨c, -, hc, -⟩
    · refine h.keep hkeeps.withQueue rfl ?_
      show w.taken b ++ w.loop.takes s b = w.taken b
      rw [Loop.takes, Loop.stands, hget]
      exact List.append_nil _
    · rw [hget] at hc
      cases hc
  | some c =>
    have hspec := h.read_spec ht hget s
    have hconfig : (w.loop.readAll s).net.config = w.loop.net.config := by
      rcases Loop.readAll_once ht.distinct s b with ⟨-, hkeeps⟩ | ⟨d, l₁, -, hbefore, hget₁, hafter⟩
      · exact hkeeps.config
      · obtain ⟨decoder, rounds, heq⟩ := Loop.readOne_decoded hget₁ s
        rw [hafter.config, heq]
        exact hbefore.config
    refine ⟨fun c' hc' => ?_, hconfig.trans h.config⟩
    dsimp only at hspec
    split at hspec
    · rw [Loop.stands, hc'] at hspec
      cases hspec.2
    · exact hspec.2 c' hc'

/-- Whatever happens, the messages that were read go on to be dispatched. -/
theorem step (h : Hears config b w) (ht : Truthful w.loop w.chronicle) (op : Operation) :
    Hears config b (w.step op) := by
  cases op with
  | ask c => exact h.keep (Loop.Keeps.refl w.loop) rfl rfl
  | commands s =>
    refine h.keep (Loop.performAll_keeps_incoming w.loop s w.loop.net.queue) ?_ rfl
    exact congrFun (w.chronicle.performAll_before w.loop s w.loop.net.queue) b
  | part p s =>
    -- parts of a round other than the two look at nothing that was accepted
    have hquiet (hp : p ≠ .read) :
        Loop.Keeps Loop.incoming b w.loop (p.run { s with accepted := [] } w.loop) :=
      Loop.keeps_incoming hp List.not_mem_nil w.loop
    cases p with
    | accept => exact h.accept s
    | read => exact h.read ht s
    | heartbeats =>
      refine h.keep (hquiet nofun).withQueue ?_ rfl
      show (if w.loop.isDue s then _ else w.chronicle : Chronicle).before b = _
      split <;> rfl
    | _ => exact h.keep (hquiet nofun).withQueue rfl rfl

end Hears

theorem hears_start (net : Network) (now : Nat) (b : Address) :
    Hears net.config b (start net now) := by
  -- the server of a client is its first connection
  let bare : Loop := ⟨{ net with table := [] }, [], now, [], []⟩
  let s : Streams := { Streams.quiet now with accepted := net.remoteAddress.toList }
  obtain ⟨hconfig, heffects⟩ := bare.accept_adds s
  refine ⟨fun c hc => ?_, hconfig⟩
  have hb : b ∈ s.accepted := by
    by_contra hb
    obtain ⟨d, hd, -⟩ := (Loop.keeps_accept (v := Loop.incoming) hb bare).part c hc
    cases hd
  have hdecoded : (start net now).decoded b = [] := by
    show ((bare.accept s).effects.flatMap _).drop 0 = []
    rw [heffects]
    rfl
  rw [hdecoded, Loop.decoder_of_accepted hb hc]
  exact .start net.config

theorem hears_run {config : NetworkConfig} {b : Address} {w : Overheard} (h : Hears config b w)
    (ht : Truthful w.loop w.chronicle) (ops : List Operation) : Hears config b (w.run ops) := by
  induction ops generalizing w with
  | nil => exact h
  | cons op ops ih => exact ih (h.step ht op) (ht.step op)

/-- As long as a connection stands, the messages that were read from it, up to the first bad frame,
have been dispatched, each once and in their order. After one more round of reads that is so again,
whether the connection goes on or its end was reached or a frame was bad; only if a read fails, the
connection is gone without the messages that came before the failure in that round. -/
theorem heard_out_iff (net : Network) (now : Nat) (ops : List Operation) (s : Streams)
    (b : Address) :
    let w := (start net now).run ops
    let w' := w.step (.part .read s)
    let fails := Connection.breaks Connection.maxReads (s.reads b) = true
    w.loop.stands b = true →
      w.decoded b = net.config.messagesIn (w.taken b) ∧
      w'.taken b = w.taken b ++ Connection.delivered Connection.maxReads (s.reads b) ∧
      (fails → w'.loop.stands b = false ∧ w'.decoded b = w.decoded b) ∧
      (w'.decoded b = net.config.messagesIn (w'.taken b) ↔
        ¬fails ∨ net.config.messagesIn (w'.taken b) = net.config.messagesIn (w.taken b)) := by
  intro w w' fails hstands
  have ht : Truthful w.loop w.chronicle := by
    have hwatched : w.toWatched = (Watched.start net now).run ops := run_toWatched _ ops
    rw [hwatched]
    exact truthful_run (truthful_start net now) ops
  have h : Hears net.config b w := hears_run (hears_start net now b) (truthful_start net now) ops
  obtain ⟨c, hget⟩ := Option.isSome_iff_exists.mp hstands
  have hdecoded : w.decoded b = net.config.messagesIn (w.taken b) :=
    (h.understood c hget).messagesIn.symm
  have hspec := h.read_spec ht hget s
  refine ⟨hdecoded, ?_, ?_⟩
  · show w.taken b ++ w.loop.takes s b = _
    rw [Loop.takes, if_pos hstands]
  · by_cases hfails : fails
    · dsimp only at hspec
      rw [if_pos hfails] at hspec
      obtain ⟨hsame, hgone⟩ := hspec
      refine ⟨fun _ => ⟨hgone, hsame⟩, ?_⟩
      rw [hsame, hdecoded]
      exact ⟨fun heq => .inr heq.symm, fun hor => (hor.resolve_left (not_not_intro hfails)).symm⟩
    · dsimp only at hspec
      rw [if_neg hfails] at hspec
      exact ⟨fun hfails' => absurd hfails' hfails, fun _ => .inl hfails, fun _ => hspec.1⟩

/-! ## A greeting that is the last thing somebody says -/

/-- A server that somebody has just connected to. -/
def answered : Overheard :=
  (start (.new .server .default Channel.bob none) 0).run
    [.part .accept { Streams.quiet 0 with accepted := [Channel.alice] }]

/-- The greeting on the wire. -/
def greetingBytes : Bytes :=
  Network.bytesOf .default Channel.greeting

/-- Who greets and hangs up is heard. -/
theorem greeting_heard :
    let s := Channel.yielding [.data greetingBytes, .endOfStream] []
    let w := answered.step (.part .read s)
    answered.loop.stands Channel.alice = true ∧ w.loop.stands Channel.alice = false ∧
      w.decoded Channel.alice = [Channel.greeting] := by
  intro s w
  have hstands : answered.loop.stands Channel.alice = true := by decide
  have hall := heard_out_iff (.new .server .default Channel.bob none) 0
    [.part .accept { Streams.quiet 0 with accepted := [Channel.alice] }] s Channel.alice hstands
  obtain ⟨-, -, -, hheard⟩ := hall
  have hmessages :
      NetworkConfig.default.messagesIn (w.taken Channel.alice) = [Channel.greeting] := by
    decide
  exact ⟨hstands, by decide, (hheard.mpr (.inl (by decide))).trans hmessages⟩

/-- Who greets and is cut off is not. -/
theorem greeting_unheard :
    let s := Channel.yielding [.data greetingBytes, .failed .reset] []
    let w := answered.step (.part .read s)
    answered.loop.stands Channel.alice = true ∧ w.loop.stands Channel.alice = false ∧
      NetworkConfig.default.messagesIn (w.taken Channel.alice) = [Channel.greeting] ∧
      w.decoded Channel.alice = [] := by
  decide

end Overheard

end Parley
