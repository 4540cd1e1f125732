import Parley.Network.Connection
import Parley.Proofs.Network.Encode

/-!
# From bytes to messages

The end of a connection that receives. Bytes come in pieces of any size, and a round may leave some
of them for later. Whatever has come of a sequence of messages, a round takes out those that are
whole and keeps the rest.

- `FrameDecoder.next_of_partial`: of a frame that has not come whole nothing is taken.
- `NetworkConfig.Speaks.understands`: what passes the sender without compression is one frame, which
  the other end reads as the same message.
- `Connection.readFor_eq`: a round of reads adds the bytes that the stream delivered, and changes
  nothing else.
- `Connection.decodeFor_spec`: decoding takes out the messages that are whole, in order, and stops where
  the next one is not.
-/

namespace Parley

/-! ## Frames that have not come whole -/

namespace FrameDecoder

/-- A part of a frame, but not all of it, gives nothing yet. -/
theorem next_of_partial (d : FrameDecoder) (f : Frame) {rest : Bytes} (hrest : rest ≠ [])
    (hb : d.buffer ++ rest = f.toBytes) (hl : f.payload.length ≤ d.limit)
    (hw : f.payload.length < Bytes.wordCount 4) : d.next = .ok none := by
  have hwhole : (d.extend rest).next = .ok (some (f, { d.extend rest with buffer := [] })) :=
    next_of_buffer (d.extend rest) f [] (by rw [buffer_extend, hb, List.append_nil]) hl hw
  -- whatever else `next` gave would still be given when the rest has come
  cases hnext : d.next with
  | error e =>
    rw [next_extend_of_error hnext rest] at hwhole
    cases hwhole
  | ok taken =>
    cases taken with
    | none => rfl
    | some p =>
      obtain ⟨g, d'⟩ := p
      rw [next_extend_of_next hnext rest] at hwhole
      have hlast : d'.buffer ++ rest = [] := by
        simp only [Except.ok.injEq, Option.some.injEq, Prod.mk.injEq] at hwhole
        rw [← buffer_extend, hwhole.2]
      exact absurd (List.append_eq_nil_iff.mp hlast).2 hrest

/-- No bytes, no frame. -/
theorem next_of_empty (d : FrameDecoder) (hb : d.buffer = []) : d.next = .ok none := by
  rw [next, hb]

end FrameDecoder

/-! ## Two ends that agree -/

/-- The bytes are one frame, and an end with these settings reads it as the message. -/
def Network.Understands (config : NetworkConfig) (bytes : Bytes) (m : Message) : Prop :=
  ∃ frame : Frame, bytes = frame.toBytes ∧ frame.payload.length ≤ config.maxFrame ∧
    frame.payload.length < Bytes.wordCount 4 ∧
    Message.ofFrame config.features config.encoding config.maxFrame frame = .ok m

/-- The sender uses the encoding and the limit of the receiver, and no compression. An encoding that
is built in at the sender's is built in at the receiver's. -/
structure NetworkConfig.Speaks (sender receiver : NetworkConfig) : Prop where
  encoding : sender.encoding = receiver.encoding
  maxFrame : sender.maxFrame = receiver.maxFrame
  plain : sender.compress = false
  built : sender.encoding.require sender.features = .ok () →
    sender.encoding.require receiver.features = .ok ()

/-- What a build can pack, a build that has the encoding packs in the same way. -/
theorem Encoding.packRecord_of_require {f f' : Features} {e : Encoding}
    (hbuilt : e.require f = .ok () → e.require f' = .ok ()) {r : Wire.Record} {v : r.Val}
    {bs : Bytes} (h : e.packRecord f r v = .ok bs) : e.packRecord f' r v = .ok bs := by
  unfold packRecord at h ⊢
  cases hrequire : e.require f with
  | error err =>
    rw [hrequire] at h
    cases h
  | ok =>
    rw [hrequire] at h
    rw [hbuilt hrequire]
    exact h

theorem Message.pack_of_require {f f' : Features} {e : Encoding}
    (hbuilt : e.require f = .ok () → e.require f' = .ok ()) {m : Message} {bs : Bytes}
    (h : m.pack f e = .ok bs) : m.pack f' e = .ok bs := by
  cases m with
  | keepAlive => exact h
  | echo body => exact Encoding.packRecord_of_require hbuilt h
  | reply body => exact Encoding.packRecord_of_require hbuilt h
  | chat body => exact Encoding.packRecord_of_require hbuilt h
  | sync body => exact Encoding.packRecord_of_require hbuilt h
  | grid body => exact Encoding.packRecord_of_require hbuilt h
  | user body => exact Encoding.packRecord_of_require hbuilt h

/-- What passes the sender is read as it was sent. -/
theorem NetworkConfig.Speaks.understands {sender receiver : NetworkConfig}
    (hs : sender.Speaks receiver) {m : Message} {bytes : Bytes}
    (h : Network.encode sender m = .ok bytes) : Network.Understands receiver bytes m := by
  obtain ⟨frame, hframe, rfl, hlimit, hlength⟩ := Network.encode_ok h
  rw [hs.plain, Message.toFrame_plain] at hframe
  obtain ⟨payload, hp, rfl⟩ := hframe
  refine ⟨_, rfl, hs.maxFrame ▸ hlimit, hlength, ?_⟩
  have hpack := Message.pack_of_require hs.built hp
  have hback := Message.ofFrame_toFrame (Message.toFrame_plain.mpr ⟨payload, hpack, rfl⟩) hpack
    hlength receiver.maxFrame
  rw [← hs.encoding, hback, if_neg]
  simp [Message.isSqueezed]

/-! ## Reading -/

/-- The bytes that one read yields. -/
def ReadOutcome.bytes : ReadOutcome → Bytes
  | .data bytes => bytes
  | _ => []

/-- Whether a round reads on after an outcome. -/
def ReadOutcome.goesOn : ReadOutcome → Bool
  | .data bytes => !bytes.isEmpty
  | .interrupted => true
  | _ => false

namespace Connection

/-- What a stream delivers in one round: the bytes of the reads that are made, which are so many at
most and end with the first that yields nothing. -/
def delivered (reads : Nat) (outcomes : List ReadOutcome) : Bytes :=
  ((outcomes.take reads).takeWhile ReadOutcome.goesOn).flatMap ReadOutcome.bytes

/-- A round of reads adds what was delivered to the decoder. -/
theorem readFor_eq (reads : Nat) (outcomes : List ReadOutcome) (c : Connection) :
    (readFor reads outcomes c).1 =
      { c with decoder := c.decoder.extend (delivered reads outcomes) } := by
  have hnone : { c with decoder := c.decoder.extend [] } = c := by
    simp [FrameDecoder.extend]
  induction reads generalizing outcomes c with
  | zero => exact hnone.symm
  | succ reads ih =>
    cases outcomes with
    | nil => exact hnone.symm
    | cons outcome rest =>
      cases outcome with
      | data bytes =>
        cases bytes with
        | nil => exact hnone.symm
        | cons b bs =>
          show (readFor reads rest { c with decoder := c.decoder.extend (b :: bs) }).1 =
            { c with decoder := c.decoder.extend ((b :: bs) ++ delivered reads rest) }
          rw [ih rest _ (by simp [FrameDecoder.extend]), FrameDecoder.extend_extend]
      | endOfStream => exact hnone.symm
      | wouldBlock => exact hnone.symm
      | interrupted => exact ih rest c hnone
      | failed fault => exact hnone.symm

/-- Where no read fails, the round does not fail. -/
theorem readFor_ne_failed {reads : Nat} {outcomes : List ReadOutcome}
    (h : ∀ fault, .failed fault ∉ outcomes) (c : Connection) (fault : HostFault) :
    (readFor reads outcomes c).2 ≠ .failed fault := by
  fun_induction readFor reads outcomes c with
  | case8 n c rest fault' => exact absurd List.mem_cons_self (h fault')
  | case5 n c rest bytes hbytes ih =>
    exact ih fun fault hmem => h fault (List.mem_cons_of_mem _ hmem)
  | case7 n c rest ih => exact ih fun fault hmem => h fault (List.mem_cons_of_mem _ hmem)
  | _ => exact nofun

/-! ## Decoding -/

/-- Decoding touches neither what goes out nor the address. -/
theorem decodeFor_frame (config : NetworkConfig) (now rounds : Nat) (c : Connection) :
    let d := (decodeFor config now rounds c).1
    d.unsent = c.unsent ∧ d.info.sent = c.info.sent ∧ d.info.address = c.info.address := by
  fun_induction decodeFor config now rounds c with
  | case5 c rounds frame decoder hnext c' m hm c'' ms e heq ih =>
    rw [heq] at ih
    exact ih
  | _ => exact ⟨rfl, rfl, rfl⟩

/-- Of the bytes of some messages, as far as they have come, decoding takes those of the messages
that are whole. What it leaves is not a whole frame. -/
theorem decodeFor_spec {config : NetworkConfig} {bytesOf : Message → Bytes} {ms : List Message}
    (hms : ∀ m ∈ ms, Network.Understands config (bytesOf m) m) (now : Nat) {rounds : Nat}
    {c : Connection} (hlimit : c.decoder.limit = config.maxFrame)
    (hcome : c.decoder.buffer <+: ms.flatMap bytesOf) (hrounds : c.decoder.buffered < rounds) :
    ∃ c' done, decodeFor config now rounds c = (c', done, none) ∧ done <+: ms ∧
      c.decoder.buffer = done.flatMap bytesOf ++ c'.decoder.buffer ∧
      c'.decoder.limit = config.maxFrame ∧ c'.decoder.next = .ok none := by
  obtain ⟨rounds, rfl⟩ := Nat.exists_eq_add_one_of_ne_zero (Nat.ne_zero_of_lt hrounds)
  -- on the messages still to come, each of which takes a round
  induction ms generalizing rounds c with
  | nil =>
    have hnext := FrameDecoder.next_of_empty c.decoder (List.prefix_nil.mp hcome)
    exact ⟨c, [], by rw [decodeFor, hnext], List.prefix_rfl, rfl, hlimit, hnext⟩
  | cons m ms ih =>
    obtain ⟨frame, hbytes, hle, hlt, hread⟩ := hms m List.mem_cons_self
    have hrest : ∀ m ∈ ms, Network.Understands config (bytesOf m) m :=
      fun m hm => hms m (List.mem_cons_of_mem _ hm)
    rw [List.flatMap_cons] at hcome
    rw [← hlimit] at hle
    by_cases hwhole : bytesOf m <+: c.decoder.buffer
    · obtain ⟨tail, htail⟩ := hwhole
      have hnext := FrameDecoder.next_of_buffer c.decoder frame tail (hbytes ▸ htail.symm) hle hlt
      rw [← htail, List.prefix_append_right_inj] at hcome
      -- a frame takes at least its header, so the rounds last
      have hshorter : tail.length < rounds := by
        have hlength := congrArg List.length htail
        rw [List.length_append, hbytes, Frame.length_toBytes, Frame.headerLength] at hlength
        unfold FrameDecoder.buffered at hrounds
        omega
      obtain ⟨rounds, rfl⟩ := Nat.exists_eq_add_one_of_ne_zero (Nat.ne_zero_of_lt hshorter)
      let next : Connection :=
        countReceived { c with decoder := { c.decoder with buffer := tail } } now
      obtain ⟨c', done, hdecode, hdone, hbuffer, hlimit', hstop⟩ :=
        ih (c := next) hrest hlimit hcome rounds hshorter
      refine ⟨c', m :: done, ?_, List.cons_prefix_cons.mpr ⟨rfl, hdone⟩, ?_, hlimit', hstop⟩
      · rw [decodeFor, hnext]
        simp only [hread]
        exact congrArg (fun r => (r.1, m :: r.2.1, r.2.2)) hdecode
      · rw [List.flatMap_cons, List.append_assoc, ← hbuffer]
        exact htail.symm
    · -- the next message has come in part at most, so decoding stops here
      obtain ⟨rest, hpart⟩ : c.decoder.buffer <+: bytesOf m :=
        (List.prefix_or_prefix_of_prefix hcome ⟨_, rfl⟩).resolve_right hwhole
      have hmore : rest ≠ [] := by
        rintro rfl
        exact hwhole ⟨[], by rw [← hpart, List.append_nil, List.append_nil]⟩
      have hnext := FrameDecoder.next_of_partial c.decoder frame hmore (hbytes ▸ hpart) hle hlt
      exact ⟨c, [], by rw [decodeFor, hnext], List.nil_prefix, rfl, hlimit, hnext⟩

end Connection

end Parley
