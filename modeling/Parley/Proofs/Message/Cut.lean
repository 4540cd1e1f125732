import Parley.Proofs.Message.Canonical
import Parley.Proofs.Wire.Cut

/-!
# A message that is cut is not read

The payload of a message tells in every encoding where it ends, so a frame that holds only a part of
it is refused, whatever the limit. A binary encoding keeps the lengths of texts, byte strings and
lists in words of their own; a length that does not fit its word is written as another one.

- `Message.Fits`: whether all lengths in a message stay below a limit.
- `Message.unpack_cut`: payloads.
- `Message.cut_refused`: frames.
-/

namespace Parley

open Wire

namespace Message

/-- All texts, byte strings and lists of bytes in a message are shorter than the limit. -/
def Fits (limit : Nat) : Message → Prop
  | keepAlive => True
  | echo body => EchoMessage.fields.Fits limit body.toFields
  | reply body => ReplyMessage.fields.Fits limit body.toFields
  | chat body => ChatMessage.fields.Fits limit body.toFields
  | sync body => SyncMessage.fields.Fits limit body.toFields
  | grid body => GridMessage.fields.Fits limit body.toFields
  | user body => UserMessage.fields.Fits limit body.toFields

/-! ## Payloads -/

/-- Nothing is made of a record that is cut. -/
theorem map_unpackRecord_cut {f : Features} {e : Encoding} {r : Record} (hr : r.Sound) {v : r.Val}
    {payload : Bytes} (h : e.packRecord f r v = .ok payload)
    (hfits : ∀ limit ∈ e.countLimit?, r.Fits limit v) {part : Bytes} (hpart : part <+: payload)
    (hcut : part ≠ payload) (make : r.Val → Message) :
    ∃ error, make <$> e.unpackRecord f r part = .error error := by
  obtain ⟨error, herror⟩ := Encoding.unpackRecord_cut hr h hfits hpart hcut
  exact ⟨error, by rw [herror]; rfl⟩

/-- No part of a packed body is read as a message of its kind, if something is missing at the
end. -/
theorem unpack_cut {f : Features} {e : Encoding} {m : Message} (hm : m ≠ keepAlive)
    {payload : Bytes} (h : m.pack f e = .ok payload)
    (hfits : ∀ limit ∈ e.countLimit?, m.Fits limit) {part : Bytes} (hpart : part <+: payload)
    (hcut : part ≠ payload) : ∃ error, unpack f e part m.kind = .error error := by
  cases m with
  | keepAlive => exact absurd rfl hm
  | echo body => exact map_unpackRecord_cut EchoMessage.sound h hfits hpart hcut _
  | reply body => exact map_unpackRecord_cut ReplyMessage.sound h hfits hpart hcut _
  | chat body => exact map_unpackRecord_cut ChatMessage.sound h hfits hpart hcut _
  | sync body => exact map_unpackRecord_cut SyncMessage.sound h hfits hpart hcut _
  | grid body => exact map_unpackRecord_cut GridMessage.sound h hfits hpart hcut _
  | user body => exact map_unpackRecord_cut UserMessage.sound h hfits hpart hcut _

/-! ## Frames -/

/-- If a frame of a message is not compressed and its payload is cut anywhere, be it before its first
byte or its last, then the frame is refused, whatever the limit. The lengths in the message have to
be such that the encoding can count them. -/
theorem cut_refused {f : Features} {e : Encoding} {compress : Bool} {m : Message}
    (hm : m ≠ keepAlive) {frame : Frame} (h : m.toFrame f e compress = .ok frame)
    (hplain : frame.isCompressed = false) (hfits : ∀ limit ∈ e.countLimit?, m.Fits limit)
    {part : Bytes} (hpart : part <+: frame.payload) (hcut : part ≠ frame.payload) (limit : Nat) :
    ∃ error, ofFrame f e limit { frame with payload := part } = .error error := by
  obtain ⟨payload, hpack, ⟨-, rfl⟩ | ⟨-, -, rfl⟩⟩ := toFrame_ok h
  · rw [@ofFrame_of_plain ⟨m.kind.code, 0, part⟩ hplain, MessageKind.ofCode?_code]
    exact unpack_cut hm hpack hfits hpart hcut
  · -- this frame has the flag of a compressed payload
    have hflag : (Frame.compressedFlag &&& Frame.compressedFlag != 0) = true := by decide
    exact Bool.noConfusion (hflag.symm.trans hplain)

/-- A user message of nine bytes in MessagePack, without the last of them. -/
theorem user_cut_refused :
    ∃ frame, (user ⟨"ab", some 7, [1, 2]⟩).toFrame .full .messagePack false = .ok frame ∧
      ∃ error, ofFrame .full .messagePack 0
        { frame with payload := [0x93, 0xA2, 97, 98, 7, 0xC4, 2, 1] } = .error error := by
  refine ⟨⟨100, 0, [0x93, 0xA2, 97, 98, 7, 0xC4, 2, 1, 2]⟩, rfl, ?_⟩
  have hfits : ∀ limit ∈ Encoding.messagePack.countLimit?,
      (user ⟨"ab", some 7, [1, 2]⟩).Fits limit := by
    intro limit hlimit
    obtain rfl := Option.mem_some.mp hlimit
    have hkind : (Utf8.encode "ab").length < MessagePack.lengthLimit := by decide
    have hpayload : [1, 2].length < MessagePack.lengthLimit := by decide
    exact ⟨hkind, trivial, hpayload, trivial⟩
  have hframe : (user ⟨"ab", some 7, [1, 2]⟩).toFrame .full .messagePack false =
      .ok ⟨100, 0, [0x93, 0xA2, 97, 98, 7, 0xC4, 2, 1, 2]⟩ := rfl
  exact cut_refused (by decide) hframe rfl hfits (by decide) (by decide) 0

/-! ## Lengths that do not fit their words -/

theorem pack_user_replicate (n : Nat) :
    (user ⟨"", none, List.replicate n 0⟩).pack .full .messagePack =
      .ok ([0x93, 0xA0, 0xC0] ++ MessagePack.bytesHead n ++ List.replicate n 0) := by
  have hpack : ∀ bs : Bytes, (user ⟨"", none, bs⟩).pack .full .messagePack =
      .ok ([0x93, 0xA0, 0xC0] ++ (MessagePack.bytesHead bs.length ++ bs ++ [])) := fun _ => rfl
  rw [hpack, List.length_replicate, List.append_nil, List.append_assoc]

/-- A byte string of four gibibytes and 65536 bytes counts as one of 65536 in MessagePack, so a
message is read from what stands before the rest of it. -/
theorem overlong_cut_read :
    ∃ frame part,
      (user ⟨"", none, List.replicate (65536 + 4294967296) 0⟩).toFrame .full .messagePack false =
        .ok frame ∧
      part <+: frame.payload ∧ part ≠ frame.payload ∧
      ∀ limit, ofFrame .full .messagePack limit { frame with payload := part } =
        .ok (user ⟨"", none, List.replicate 65536 0⟩) := by
  have hshort := pack_user_replicate 65536
  -- the lengths of both byte strings are written alike
  have hhead : MessagePack.bytesHead (65536 + 4294967296) = MessagePack.bytesHead 65536 := by decide
  have hlong : (user ⟨"", none, List.replicate (65536 + 4294967296) 0⟩).pack .full .messagePack =
      .ok ([0x93, 0xA0, 0xC0] ++ MessagePack.bytesHead 65536 ++ List.replicate 65536 0 ++
        List.replicate 4294967296 0) := by
    rw [pack_user_replicate, hhead, List.append_assoc _ (List.replicate 65536 0),
      List.replicate_append_replicate]
  refine ⟨⟨100, 0, _⟩, _, toFrame_plain.mpr ⟨_, hlong, rfl⟩, List.prefix_append _ _, ?_, ?_⟩
  · intro heq
    have hnil := List.self_eq_append_right.mp heq
    exact absurd ((List.replicate_eq_nil_iff 0).mp hnil) (by decide)
  · intro limit
    have hlength : ([0x93, 0xA0, 0xC0] ++ MessagePack.bytesHead 65536 ++
        List.replicate 65536 (0 : UInt8)).length < Bytes.wordCount 4 := by
      rw [List.length_append, List.length_replicate]
      decide
    exact ofFrame_plain hshort hlength limit

end Message

end Parley
