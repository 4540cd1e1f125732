import Parley.Message.Basic
import Parley.Proofs.Wire.Compressed
import Parley.Proofs.Wire.Encoding

/-!
# Messages come out of their frames as they went in

- `Message.unpack_pack`: the body of a message of any kind is read back, if its bytes can be counted
  in four.
- `Message.ofFrame_toFrame`: a frame gives back its message exactly if the payload was not
  compressed or is within the reader's limit when it is unpacked.
-/

namespace Parley

open Wire

/-! ## Bodies -/

theorem EchoMessage.sound : Record.Sound EchoMessage.fields := ⟨by decide, by decide, by decide⟩

theorem ReplyMessage.sound : Record.Sound ReplyMessage.fields := ⟨by decide, by decide, by decide⟩

theorem ChatMessage.sound : Record.Sound ChatMessage.fields := ⟨by decide, by decide, by decide⟩

theorem SyncMessage.sound : Record.Sound SyncMessage.fields := ⟨by decide, by decide, by decide⟩

theorem GridMessage.sound : Record.Sound GridMessage.fields := ⟨by decide, by decide, by decide⟩

theorem UserMessage.sound : Record.Sound UserMessage.fields := ⟨by decide, by decide, by decide⟩

namespace Message

/-- What is made of a record is made of it again when it is read back. -/
theorem map_unpackRecord {f : Features} {e : Encoding} {r : Record} (hr : r.Sound) {v : r.Val}
    {bs : Bytes} (h : e.packRecord f r v = .ok bs) (hlength : bs.length < Bytes.wordCount 4)
    (make : r.Val → Message) : make <$> e.unpackRecord f r bs = .ok (make v) := by
  rw [Encoding.unpackRecord_packRecord hr h hlength]
  rfl

/-- The body of a message is read back, if its bytes can be counted in four. -/
theorem unpack_pack {f : Features} {e : Encoding} {m : Message} {payload : Bytes}
    (h : m.pack f e = .ok payload) (hlength : payload.length < Bytes.wordCount 4) :
    unpack f e payload m.kind = .ok m := by
  cases m with
  | keepAlive => rfl
  | echo body =>
    rw [kind, unpack, map_unpackRecord EchoMessage.sound h hlength, Function.comp,
      EchoMessage.ofFields_toFields]
  | reply body =>
    rw [kind, unpack, map_unpackRecord ReplyMessage.sound h hlength, Function.comp,
      ReplyMessage.ofFields_toFields]
  | chat body =>
    rw [kind, unpack, map_unpackRecord ChatMessage.sound h hlength, Function.comp,
      ChatMessage.ofFields_toFields]
  | sync body =>
    rw [kind, unpack, map_unpackRecord SyncMessage.sound h hlength, Function.comp,
      SyncMessage.ofFields_toFields]
  | grid body =>
    rw [kind, unpack, map_unpackRecord GridMessage.sound h hlength, Function.comp,
      GridMessage.ofFields_toFields]
  | user body =>
    rw [kind, unpack, map_unpackRecord UserMessage.sound h hlength, Function.comp,
      UserMessage.ofFields_toFields]

/-! ## Frames -/

/-- Whether a payload is compressed on its way. -/
def isSqueezed (f : Features) (compress : Bool) (payload : Bytes) : Bool :=
  f.lz4 && compress && compressionThreshold ≤ payload.length

/-- A frame has the packed body as it is, or compressed if it is one to be squeezed. -/
theorem toFrame_ok {f : Features} {e : Encoding} {compress : Bool} {m : Message} {frame : Frame}
    (h : m.toFrame f e compress = .ok frame) :
    ∃ payload, m.pack f e = .ok payload ∧
      ((isSqueezed f compress payload = false ∧ frame = ⟨m.kind.code, 0, payload⟩) ∨
        (isSqueezed f compress payload = true ∧ payload.length ≤ Compressed.sizeLimit ∧
          frame = ⟨m.kind.code, Frame.compressedFlag, Compressed.compress payload⟩)) := by
  unfold toFrame at h
  cases hp : m.pack f e with
  | error err =>
    rw [hp] at h
    cases h
  | ok payload =>
    rw [hp] at h
    refine ⟨payload, rfl, ?_⟩
    simp only [bind, Except.bind] at h
    change (if isSqueezed f compress payload = true then _ else _) = _ at h
    by_cases hs : isSqueezed f compress payload = true
    · rw [if_pos hs, Compressed.pack] at h
      by_cases hlong : Compressed.sizeLimit < payload.length
      · rw [if_pos hlong] at h
        cases h
      · rw [if_neg hlong] at h
        cases h
        exact .inr ⟨hs, Nat.not_lt.mp hlong, rfl⟩
    · rw [if_neg hs] at h
      cases h
      exact .inl ⟨Bool.eq_false_iff.mpr hs, rfl⟩

/-- A frame that is not compressed holds the packed message. -/
theorem toFrame_plain {f : Features} {e : Encoding} {m : Message} {frame : Frame} :
    m.toFrame f e false = .ok frame ↔
      ∃ payload, m.pack f e = .ok payload ∧ frame = ⟨m.kind.code, 0, payload⟩ := by
  unfold toFrame
  cases hp : m.pack f e with
  | error err => simp [bind, Except.bind]
  | ok payload => simp [bind, Except.bind, eq_comm]

theorem plainPayload_plain (f : Features) (limit : Nat) (kind : UInt8) (payload : Bytes) :
    plainPayload f limit ⟨kind, 0, payload⟩ = .ok payload := by
  have hflag : (Frame.mk kind 0 payload).isCompressed = false := by
    show ((0 : UInt8) &&& Frame.compressedFlag != 0) = false
    decide
  rw [plainPayload, hflag]
  rfl

/-- A compressed payload is restored within the limit only. -/
theorem plainPayload_block {f : Features} (hlz4 : f.lz4 = true) {payload block : Bytes}
    (hsize : payload.length ≤ Compressed.sizeLimit)
    (h : Lz4.decode? payload.length block = some payload) (limit : Nat) (kind : UInt8) :
    plainPayload f limit
        ⟨kind, Frame.compressedFlag, Bytes.ofNatLE 4 payload.length ++ block⟩ =
      if limit < payload.length then .error (.frameTooLarge payload.length limit)
      else .ok payload := by
  have hflag : (Frame.mk kind Frame.compressedFlag
      (Bytes.ofNatLE 4 payload.length ++ block)).isCompressed = true := by
    show (Frame.compressedFlag &&& Frame.compressedFlag != 0) = true
    decide
  rw [plainPayload, if_pos hflag, if_pos hlz4, Compressed.decompress_block hsize h]

/-- A frame that holds the packed body as it is gives back the message, whatever the limit. -/
theorem ofFrame_plain {f : Features} {e : Encoding} {m : Message} {payload : Bytes}
    (hp : m.pack f e = .ok payload) (hlength : payload.length < Bytes.wordCount 4) (limit : Nat) :
    ofFrame f e limit ⟨m.kind.code, 0, payload⟩ = .ok m := by
  have hback := unpack_pack hp hlength
  rw [ofFrame, MessageKind.ofCode?_code]
  simp only [plainPayload_plain, bind, Except.bind, hback]

/-- A frame that holds a block of the packed body gives back the message within the limit only. -/
theorem ofFrame_block {f : Features} (hlz4 : f.lz4 = true) {e : Encoding} {m : Message}
    {payload block : Bytes} (hp : m.pack f e = .ok payload)
    (hsize : payload.length ≤ Compressed.sizeLimit)
    (h : Lz4.decode? payload.length block = some payload) (limit : Nat) :
    ofFrame f e limit
        ⟨m.kind.code, Frame.compressedFlag, Bytes.ofNatLE 4 payload.length ++ block⟩ =
      if limit < payload.length then .error (.frameTooLarge payload.length limit) else .ok m := by
  -- the size before compression has a limit of its own, below that of four bytes
  have hback := unpack_pack hp (Nat.lt_of_le_of_lt hsize (by decide))
  rw [ofFrame, MessageKind.ofCode?_code]
  simp only [plainPayload_block hlz4 hsize h, bind, Except.bind]
  by_cases hlimit : limit < payload.length
  · simp only [if_pos hlimit]
  · simp only [if_neg hlimit, hback]

/-- A frame gives back its message, if a payload that was squeezed is within the limit. -/
theorem ofFrame_toFrame {f : Features} {e : Encoding} {compress : Bool} {m : Message}
    {frame : Frame} {payload : Bytes} (h : m.toFrame f e compress = .ok frame)
    (hp : m.pack f e = .ok payload) (hlength : frame.payload.length < Bytes.wordCount 4)
    (limit : Nat) :
    ofFrame f e limit frame =
      if isSqueezed f compress payload = true ∧ limit < payload.length then
        .error (.frameTooLarge payload.length limit)
      else .ok m := by
  obtain ⟨packed, hpacked, hframe⟩ := toFrame_ok h
  obtain rfl : payload = packed := Except.ok.inj (hp.symm.trans hpacked)
  rcases hframe with ⟨hs, rfl⟩ | ⟨hs, hsize, rfl⟩
  · rw [if_neg (by simp [hs])]
    exact ofFrame_plain hp hlength limit
  · have hlz4 : f.lz4 = true := by
      simp only [isSqueezed, Bool.and_eq_true] at hs
      exact hs.1.1
    simp only [hs, true_and]
    exact ofFrame_block hlz4 hp hsize (Lz4.decode?_encode payload) limit

end Message

end Parley
