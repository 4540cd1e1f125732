import Parley.Proofs.Message.RoundTrip

/-!
# Every message is restored

In a build with all its parts every message has a frame, in every encoding, compressed or not. The
frame gives back the message, and what limits it is the size of the payload before compression.

- `Message.exists_pack`: no body fails to be packed.
- `Message.toFrame_of_pack`: the frame of a packed body, which is compressed if that is wanted and the
  body is long enough.
- `Message.restored`: the frame read back, for any block that stands for the packed body.
-/

namespace Parley

namespace Message

theorem exists_pack (e : Encoding) (m : Message) : ∃ payload, m.pack .full e = .ok payload := by
  have hrecord : ∀ (r : Wire.Record) (v : r.Val), ∃ bs, e.packRecord .full r v = .ok bs := by
    intro r v
    cases e with
    | bincode => exact ⟨Wire.Bincode.writeRecord r v, rfl⟩
    | messagePack => exact ⟨Wire.MessagePack.writeRecord r v, rfl⟩
    | json => exact ⟨Wire.JsonText.writeRecord r v, rfl⟩
  cases m with
  | keepAlive => exact ⟨[], rfl⟩
  | echo body => exact hrecord _ body.toFields
  | reply body => exact hrecord _ body.toFields
  | chat body => exact hrecord _ body.toFields
  | sync body => exact hrecord _ body.toFields
  | grid body => exact hrecord _ body.toFields
  | user body => exact hrecord _ body.toFields

/-- The frame of a packed body. Compression fails only for what is too long for its format. -/
theorem toFrame_of_pack {f : Features} {e : Encoding} {compress : Bool} {m : Message}
    {payload : Bytes} (hp : m.pack f e = .ok payload)
    (hsize : isSqueezed f compress payload = true → payload.length ≤ Compressed.sizeLimit) :
    m.toFrame f e compress = .ok (
      if isSqueezed f compress payload = true then
        ⟨m.kind.code, Frame.compressedFlag, Compressed.compress payload⟩
      else ⟨m.kind.code, 0, payload⟩) := by
  unfold toFrame
  rw [hp]
  show (if isSqueezed f compress payload = true then _ else _) = _
  by_cases hs : isSqueezed f compress payload = true
  · rw [if_pos hs, if_pos hs, Compressed.pack, if_neg (Nat.not_lt.mpr (hsize hs))]
    rfl
  · rw [if_neg hs, if_neg hs]

/-- Every message can be packed. If the packed body keeps the limits of the formats, it has a frame of
the message's own kind. A frame that is not compressed gives back the message whatever the limit, and
one that is compressed gives it back exactly if the limit admits the packed body. The latter holds
of every block that unpacks to the packed body. -/
theorem restored (e : Encoding) (compress : Bool) (m : Message) :
    ∃ payload, m.pack .full e = .ok payload ∧
      (payload.length < 2147483648 → (compress = true → payload.length ≤ Compressed.sizeLimit) →
        ∃ frame, m.toFrame .full e compress = .ok frame ∧ frame.kind = m.kind.code ∧
          frame.isCompressed = (compress && decide (compressionThreshold ≤ payload.length)) ∧
          (frame.isCompressed = false → ∀ limit, ofFrame .full e limit frame = .ok m) ∧
          (frame.isCompressed = true → ∀ limit,
            (payload.length ≤ limit → ofFrame .full e limit frame = .ok m) ∧
            (limit < payload.length →
              ofFrame .full e limit frame = .error (.frameTooLarge payload.length limit))) ∧
          (compress = true → ∀ block, Lz4.decode? payload.length block = some payload →
            ∀ limit, ofFrame .full e limit
                ⟨m.kind.code, Frame.compressedFlag, Bytes.ofNatLE 4 payload.length ++ block⟩ =
              if limit < payload.length then .error (.frameTooLarge payload.length limit)
              else .ok m)) := by
  obtain ⟨payload, hp⟩ := exists_pack e m
  refine ⟨payload, hp, ?_⟩
  intro hlength hlimit
  have hword : payload.length < Bytes.wordCount 4 := Nat.lt_trans hlength (by decide)
  have hsqueezed : isSqueezed .full compress payload =
      (compress && decide (compressionThreshold ≤ payload.length)) := rfl
  have hblock : compress = true → ∀ block, Lz4.decode? payload.length block = some payload →
      ∀ limit, ofFrame .full e limit
          ⟨m.kind.code, Frame.compressedFlag, Bytes.ofNatLE 4 payload.length ++ block⟩ =
        if limit < payload.length then .error (.frameTooLarge payload.length limit)
        else .ok m := by
    intro hcompress block hdecode limit
    exact ofFrame_block rfl hp (hlimit hcompress) hdecode limit
  have hcompress : isSqueezed .full compress payload = true → compress = true := by
    intro hs
    rw [hsqueezed, Bool.and_eq_true] at hs
    exact hs.1
  have hframe := toFrame_of_pack hp fun hs => hlimit (hcompress hs)
  refine ⟨_, hframe, ?_⟩
  by_cases hs : isSqueezed .full compress payload = true
  · have hflag : (Frame.mk m.kind.code Frame.compressedFlag
        (Compressed.compress payload)).isCompressed = true := by
      show (Frame.compressedFlag &&& Frame.compressedFlag != 0) = true
      decide
    rw [if_pos hs]
    refine ⟨rfl, hflag.trans (hs.symm.trans hsqueezed), ?_, ?_, hblock⟩
    · intro hplain
      rw [hflag] at hplain
      cases hplain
    · intro _ limit
      have hback := hblock (hcompress hs) _ (Lz4.decode?_encode payload) limit
      refine ⟨?_, ?_⟩
      · intro hle
        exact hback.trans (if_neg (Nat.not_lt.mpr hle))
      · intro hlt
        exact hback.trans (if_pos hlt)
  · have hflag : (Frame.mk m.kind.code 0 payload).isCompressed = false := by
      show ((0 : UInt8) &&& Frame.compressedFlag != 0) = false
      decide
    rw [if_neg hs]
    refine ⟨rfl, ?_, ?_, ?_, hblock⟩
    · rw [hflag, ← hsqueezed]
      exact (Bool.eq_false_iff.mpr hs).symm
    · intro _ limit
      exact ofFrame_plain hp hword limit
    · intro hsq
      rw [hflag] at hsq
      cases hsq

/-- Data that is there but empty is not taken for data that is missing. -/
theorem empty_data_restored :
    ∃ payload frame, (grid ⟨.compSuccessful, 7, some []⟩).pack .full .messagePack = .ok payload ∧
      payload.length < 2147483648 ∧ payload.length ≤ Compressed.sizeLimit ∧
      (grid ⟨.compSuccessful, 7, some []⟩).toFrame .full .messagePack true = .ok frame ∧
      ∀ limit, ofFrame .full .messagePack limit frame = .ok (grid ⟨.compSuccessful, 7, some []⟩) := by
  obtain ⟨payload, hp, hrestored⟩ := restored .messagePack true (grid ⟨.compSuccessful, 7, some []⟩)
  have hbytes : (grid ⟨.compSuccessful, 7, some []⟩).pack .full .messagePack =
      .ok [0x93, 1, 7, 0x90] := rfl
  obtain rfl := Except.ok.inj (hp.symm.trans hbytes)
  obtain ⟨frame, hframe, -, hflag, hplain, -⟩ := hrestored (by decide) (fun _ => by decide)
  exact ⟨_, frame, hp, by decide, by decide, hframe, hplain (hflag.trans (by decide))⟩

end Message

end Parley
