import Parley.Network.Basic
import Parley.Proofs.Message.RoundTrip
import Parley.Proofs.Wire.Run
import Parley.Proofs.Wire.Splitting

/-!
# What passes the sender, and what the other end makes of it

`Network.encode` looks at the payload of the frame only, so of a payload that is compressed it looks
at the compressed size. The other end holds the unpacked size against the same limit.

- `FrameDecoder.drain_toBytes`: the bytes of a message are one frame, and nothing is left over.
- `Network.receives_iff_of_encode`: the other end gets the message exactly if it was not compressed
  or its unpacked size is within the limit; otherwise it refuses the frame as too large.
-/

namespace Parley

namespace FrameDecoder

/-- A decoder that has taken one frame whole has nothing left. -/
theorem drain_toBytes {frame : Frame} {limit : Nat} (hlimit : frame.payload.length ≤ limit)
    (hlength : frame.payload.length < Bytes.wordCount 4) :
    ((new limit).extend frame.toBytes).drain = ([frame], none, new limit) := by
  rw [drain_eq_iff]
  have hframe : Draining ⟨limit, [frame].flatMap Frame.toBytes⟩ [frame] none (new limit) := by
    refine draining_toBytes ?_
    rintro f hf
    rw [List.mem_singleton.mp hf]
    exact ⟨hlimit, hlength⟩
  rw [List.flatMap_singleton] at hframe
  exact hframe

end FrameDecoder

namespace Network

open Wire

/-- The other end, with the same settings, gets exactly the message out of the bytes: they are one
frame, with nothing left over, and the message is what it holds. -/
def Receives (config : NetworkConfig) (bytes : Bytes) (m : Message) : Prop :=
  ∃ frame, ((FrameDecoder.new config.maxFrame).extend bytes).drain =
      ([frame], none, .new config.maxFrame) ∧
    Message.ofFrame config.features config.encoding config.maxFrame frame = .ok m

/-- The other end takes one frame out of the bytes, with nothing left over, and fails to read it. -/
def Refuses (config : NetworkConfig) (bytes : Bytes) (e : Error) : Prop :=
  ∃ frame, ((FrameDecoder.new config.maxFrame).extend bytes).drain =
      ([frame], none, .new config.maxFrame) ∧
    Message.ofFrame config.features config.encoding config.maxFrame frame = .error e

theorem encode_ok {config : NetworkConfig} {m : Message} {bytes : Bytes}
    (h : encode config m = .ok bytes) :
    ∃ frame, m.toFrame config.features config.encoding config.compress = .ok frame ∧
      bytes = frame.toBytes ∧ frame.payload.length ≤ config.maxFrame ∧
      frame.payload.length < Bytes.wordCount 4 := by
  unfold encode at h
  cases hframe : m.toFrame config.features config.encoding config.compress with
  | error e =>
    rw [hframe] at h
    cases h
  | ok frame =>
    rw [hframe] at h
    by_cases hlimit : payloadLimit config < frame.payload.length
    · simp only [if_pos hlimit] at h
      cases h
    · simp only [if_neg hlimit] at h
      cases h
      have hle : frame.payload.length ≤ min config.maxFrame 4294967295 := Nat.not_lt.mp hlimit
      have hword : min config.maxFrame 4294967295 < Bytes.wordCount 4 :=
        Nat.lt_of_le_of_lt (Nat.min_le_right _ _) (by decide)
      exact ⟨frame, rfl, rfl, Nat.le_trans hle (Nat.min_le_left _ _),
        Nat.lt_of_le_of_lt hle hword⟩

/-- What the sender passes can be counted in four bytes before it is compressed, too. -/
theorem pack_of_encode {config : NetworkConfig} {m : Message} {bytes : Bytes}
    (h : encode config m = .ok bytes) :
    ∃ payload, m.pack config.features config.encoding = .ok payload ∧
      payload.length < Bytes.wordCount 4 := by
  obtain ⟨frame, hframe, -, -, hlength⟩ := encode_ok h
  obtain ⟨payload, hp, ⟨-, rfl⟩ | ⟨-, hsize, -⟩⟩ := Message.toFrame_ok hframe
  · exact ⟨payload, hp, hlength⟩
  · exact ⟨payload, hp, Nat.lt_of_le_of_lt hsize (by decide)⟩

theorem encode_of_toFrame {config : NetworkConfig} {m : Message} {frame : Frame}
    (h : m.toFrame config.features config.encoding config.compress = .ok frame)
    (hlimit : ¬ payloadLimit config < frame.payload.length) :
    encode config m = .ok frame.toBytes := by
  unfold encode
  rw [h]
  simp only [if_neg hlimit]

/-- The other end takes one frame out of what the sender passes. Whether it can read the frame
depends on the size of the payload when it is unpacked. -/
theorem frame_of_encode {config : NetworkConfig} {m : Message} {bytes payload : Bytes}
    (h : encode config m = .ok bytes)
    (hp : m.pack config.features config.encoding = .ok payload) :
    ∃ frame, ((FrameDecoder.new config.maxFrame).extend bytes).drain =
        ([frame], none, .new config.maxFrame) ∧
      Message.ofFrame config.features config.encoding config.maxFrame frame =
        if Message.isSqueezed config.features config.compress payload = true ∧
            config.maxFrame < payload.length then
          .error (.frameTooLarge payload.length config.maxFrame)
        else .ok m := by
  obtain ⟨frame, hframe, rfl, hlimit, hlength⟩ := encode_ok h
  exact ⟨frame, FrameDecoder.drain_toBytes hlimit hlength,
    Message.ofFrame_toFrame hframe hp hlength config.maxFrame⟩

theorem Refuses.not_receives {config : NetworkConfig} {m : Message} {bytes : Bytes} {e : Error}
    (h : Refuses config bytes e) : ¬ Receives config bytes m := by
  rintro ⟨other, hother, hm⟩
  obtain ⟨frame, hdrain, hback⟩ := h
  rw [hdrain] at hother
  cases hother
  rw [hback] at hm
  cases hm

/-! ## A message that is compressed -/

/-- A message that carries zeros only. -/
def zeros : Message :=
  .echo (.new (List.replicate 512 0))

theorem pack_zeros : zeros.pack .full .bincode = .ok (Lz4.dotted 518) := by
  have hlength : (List.replicate 512 (0 : UInt8)).length = 512 := List.length_replicate
  have hrun : List.replicate (6 + 512) (0 : UInt8) = List.replicate 6 0 ++ List.replicate 512 0 :=
    List.replicate_append_replicate.symm
  have hbytes : Bincode.writeRecord EchoMessage.fields
      (EchoMessage.new (List.replicate 512 0)).toFields = Lz4.dotted (6 + 512) := by
    rw [Lz4.dotted, hrun]
    generalize List.replicate 512 (0 : UInt8) = run at hlength
    show 0 :: 0 :: (Bytes.ofNatLE 8 run.length ++ run ++ []) = _
    rw [hlength, List.append_nil]
    rfl
  rw [zeros, Message.pack, Encoding.packRecord, Encoding.require_full]
  exact congrArg Except.ok hbytes

theorem length_zeros : (Lz4.dotted 518).length = 522 :=
  Lz4.size_dotted 518

theorem isSqueezed_zeros : Message.isSqueezed .full true (Lz4.dotted 518) = true := by
  rw [Message.isSqueezed, length_zeros]
  decide

theorem toFrame_zeros : zeros.toFrame .full .bincode true =
    .ok ⟨1, Frame.compressedFlag, Compressed.compress (Lz4.dotted 518)⟩ := by
  have hsize : ¬ Compressed.sizeLimit < (Lz4.dotted 518).length := by
    rw [length_zeros]
    decide
  have hlong : (Features.full.lz4 && true &&
      Message.compressionThreshold ≤ (Lz4.dotted 518).length) = true := isSqueezed_zeros
  rw [Message.toFrame, pack_zeros]
  simp only [bind, Except.bind, hlong, if_true, Compressed.pack, hsize, if_false]
  rfl

/-- The zeros take twenty bytes: sixteen for the block and four for their number. -/
theorem length_compress_zeros : (Compressed.compress (Lz4.dotted 518)).length = 20 := by
  rw [Compressed.compress, List.length_append, Bytes.length_ofNatLE, Lz4.encode_dotted]
  rfl

/-! ## What the other end makes of a message -/

/-- The other end gets a message exactly if it was not compressed or is within the limit when it is
unpacked. Otherwise the frame comes whole and is refused for its unpacked size. -/
theorem receives_iff_of_encode {config : NetworkConfig} {m : Message} {bytes : Bytes}
    (h : encode config m = .ok bytes) :
    ∃ payload, m.pack config.features config.encoding = .ok payload ∧
      (Receives config bytes m ↔
        (Message.isSqueezed config.features config.compress payload = true →
          payload.length ≤ config.maxFrame)) ∧
      (¬ Receives config bytes m →
        Refuses config bytes (.frameTooLarge payload.length config.maxFrame)) := by
  obtain ⟨_, hframe, -⟩ := encode_ok h
  obtain ⟨payload, hp, -⟩ := Message.toFrame_ok hframe
  obtain ⟨frame, hdrain, hback⟩ := frame_of_encode h hp
  refine ⟨payload, hp, ?_⟩
  by_cases hlarge : Message.isSqueezed config.features config.compress payload = true ∧
      config.maxFrame < payload.length
  · -- the other end takes the frame whole before it finds the payload too large
    rw [if_pos hlarge] at hback
    have hrefuses : Refuses config bytes (.frameTooLarge payload.length config.maxFrame) :=
      ⟨frame, hdrain, hback⟩
    refine ⟨⟨fun hm => absurd hm hrefuses.not_receives, ?_⟩, fun _ => hrefuses⟩
    intro hle
    have := hle hlarge.1
    omega
  · rw [if_neg hlarge] at hback
    have hreceives : Receives config bytes m := ⟨frame, hdrain, hback⟩
    refine ⟨⟨?_, fun _ => hreceives⟩, fun hnot => absurd hreceives hnot⟩
    intro _ hs
    exact Nat.not_lt.mp fun hlt => hlarge ⟨hs, hlt⟩

/-- Settings with compression. -/
def packing : NetworkConfig :=
  { NetworkConfig.default with compress := true }

/-- The zeros come out at the other end, which unpacks them from fewer bytes. -/
theorem receives_zeros :
    ∃ bytes payload, encode packing zeros = .ok bytes ∧ bytes.length < payload.length ∧
      zeros.pack .full .bincode = .ok payload ∧ Message.isSqueezed .full true payload = true ∧
      Receives packing bytes zeros := by
  have hsmall : ¬ payloadLimit packing < (Compressed.compress (Lz4.dotted 518)).length := by
    rw [length_compress_zeros]
    decide
  have hencode : encode packing zeros =
      .ok (Frame.mk 1 Frame.compressedFlag (Compressed.compress (Lz4.dotted 518))).toBytes :=
    encode_of_toFrame toFrame_zeros hsmall
  obtain ⟨payload, hp, hiff, -⟩ := receives_iff_of_encode hencode
  obtain rfl : Lz4.dotted 518 = payload := Except.ok.inj (pack_zeros.symm.trans hp)
  refine ⟨_, _, hencode, ?_, hp, isSqueezed_zeros, hiff.mpr fun _ => ?_⟩
  · rw [Frame.length_toBytes, length_compress_zeros, length_zeros]
    decide
  · rw [length_zeros]
    decide

/-- Settings with compression and a small limit. -/
def squeezing : NetworkConfig :=
  { NetworkConfig.default with compress := true, maxFrame := 100 }

/-- The sender passes the zeros, which take few bytes, and the other end refuses them. -/
theorem zeros_pass_and_are_refused :
    ∃ bytes, encode squeezing zeros = .ok bytes ∧ ¬ Receives squeezing bytes zeros ∧
      Refuses squeezing bytes (.frameTooLarge 522 100) := by
  -- the sender compares the bytes that go out with the limit
  have hsmall : ¬ payloadLimit squeezing < (Compressed.compress (Lz4.dotted 518)).length := by
    rw [length_compress_zeros]
    decide
  have hencode : encode squeezing zeros =
      .ok (Frame.mk 1 Frame.compressedFlag (Compressed.compress (Lz4.dotted 518))).toBytes :=
    encode_of_toFrame toFrame_zeros hsmall
  obtain ⟨frame, hdrain, hback⟩ := frame_of_encode hencode pack_zeros
  rw [length_zeros, if_pos ⟨isSqueezed_zeros, by decide⟩] at hback
  have hrefuses : Refuses squeezing _ (.frameTooLarge 522 100) := ⟨frame, hdrain, hback⟩
  exact ⟨_, hencode, hrefuses.not_receives, hrefuses⟩

end Network

end Parley
