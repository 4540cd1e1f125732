import Parley.Proofs.Message.RoundTrip
import Parley.Proofs.Wire.Canonical

/-!
# A message has one form in bincode

Whatever a peer sends, if it is read as a message, it begins with the bytes that this node would write
for the message. What stands behind them is passed over.

- `Encoding.unpackRecord_bincode_iff`: the bytes that a record is read from.
- `EchoMessage.toFields_ofFields` and its fellows: fields are those of the body that is made of them.
- `Message.unpack_bincode_ok`: the payloads that a message is read from.
- `Message.canonical_in_bincode`: the frames that a message is read from.
-/

namespace Parley

open Wire

/-! ## Records -/

namespace Encoding

/-- A record is read from all bytes that begin with what is written for it, and from no others. -/
theorem unpackRecord_bincode_iff {f : Features} {r : Record} {bs : Bytes} {v : r.Val} :
    bincode.unpackRecord f r bs = .ok v ↔
      r.Fits Bincode.lengthLimit v ∧ Bincode.writeRecord r v <+: bs := by
  -- bincode is always built in
  have hrequire : bincode.require f = .ok () := rfl
  simp only [unpackRecord, hrequire, bind, Except.bind]
  constructor
  · intro h
    cases hread : Bincode.readRecord r bs with
    | error fault =>
      rw [hread] at h
      cases h
    | ok p =>
      obtain ⟨v', rest⟩ := p
      rw [hread] at h
      obtain rfl : v' = v := Except.ok.inj h
      obtain ⟨hfits, rfl⟩ := (Bincode.readRecord_eq_ok_iff r).mp hread
      exact ⟨hfits, List.prefix_append _ _⟩
  · rintro ⟨hfits, rest, rfl⟩
    rw [Bincode.readRecord_writeRecord r v hfits]

end Encoding

/-! ## Bodies -/

theorem ChatKind.code_ofCode (c : { c : UInt8 // c ∈ codes }) : (ofCode c).code = c := by
  obtain ⟨c, hc⟩ := c
  simp only [codes, List.mem_cons, List.not_mem_nil, or_false] at hc
  rcases hc with rfl | rfl | rfl <;> rfl

theorem SyncKind.code_ofCode (c : { c : UInt8 // c ∈ codes }) : (ofCode c).code = c := by
  obtain ⟨c, hc⟩ := c
  simp only [codes, List.mem_cons, List.not_mem_nil, or_false] at hc
  rcases hc with rfl | rfl <;> rfl

theorem GridKind.code_ofCode (c : { c : UInt8 // c ∈ codes }) : (ofCode c).code = c := by
  obtain ⟨c, hc⟩ := c
  simp only [codes, List.mem_cons, List.not_mem_nil, or_false] at hc
  rcases hc with rfl | rfl | rfl | rfl | rfl | rfl | rfl | rfl <;> rfl

theorem EchoMessage.toFields_ofFields (v : fields.Val) : (ofFields v).toFields = v := rfl

theorem ReplyMessage.toFields_ofFields (v : fields.Val) : (ofFields v).toFields = v := rfl

theorem UserMessage.toFields_ofFields (v : fields.Val) : (ofFields v).toFields = v := rfl

theorem ChatMessage.toFields_ofFields (v : fields.Val) : (ofFields v).toFields = v := by
  obtain ⟨kind, msg, room, ⟨⟩⟩ := v
  exact congrArg (·, msg, room, ()) (ChatKind.code_ofCode kind)

theorem SyncMessage.toFields_ofFields (v : fields.Val) : (ofFields v).toFields = v := by
  obtain ⟨id, kind, payload, ⟨⟩⟩ := v
  exact congrArg (id, ·, payload, ()) (SyncKind.code_ofCode kind)

theorem GridMessage.toFields_ofFields (v : fields.Val) : (ofFields v).toFields = v := by
  obtain ⟨kind, jobId, data, ⟨⟩⟩ := v
  exact congrArg (·, jobId, data, ()) (GridKind.code_ofCode kind)

namespace Message

/-! ## Payloads -/

/-- The payload is what is written for the message, and it is read from all that begins with it. -/
def FormOf (f : Features) (kind : MessageKind) (m : Message) (payload : Bytes) : Prop :=
  m.kind = kind ∧ m.pack f .bincode = .ok payload ∧
    ∀ bs, unpack f .bincode bs kind = .ok m ↔ payload <+: bs

/-- A message that is made of a record has the form of the record. -/
theorem formOf_of_record {f : Features} {kind : MessageKind} {β : Type} {wrap : β → Message}
    {r : Record} {toFields : β → r.Val} {ofFields : r.Val → β}
    (hwrap : Function.Injective wrap) (hfields : Function.LeftInverse toFields ofFields)
    (hkind : ∀ body, (wrap body).kind = kind)
    (hpack : ∀ body, (wrap body).pack f .bincode = Encoding.bincode.packRecord f r (toFields body))
    (hunpack : ∀ bs, unpack f .bincode bs kind =
      (wrap ∘ ofFields) <$> Encoding.bincode.unpackRecord f r bs)
    {bs : Bytes} {m : Message} (h : unpack f .bincode bs kind = .ok m) :
    ∃ payload, FormOf f kind m payload ∧ payload <+: bs := by
  -- whoever reads the message has read one record, the same each time
  have hread : ∀ {bs}, unpack f .bincode bs kind = .ok m →
      ∃ v, Encoding.bincode.unpackRecord f r bs = .ok v ∧ wrap (ofFields v) = m := by
    intro bs h
    rw [hunpack] at h
    cases hrecord : Encoding.bincode.unpackRecord f r bs with
    | error e =>
      rw [hrecord] at h
      cases h
    | ok v =>
      rw [hrecord] at h
      exact ⟨v, rfl, Except.ok.inj h⟩
  obtain ⟨v, hv, rfl⟩ := hread h
  obtain ⟨hfits, hbegins⟩ := Encoding.unpackRecord_bincode_iff.mp hv
  refine ⟨Bincode.writeRecord r v, ⟨hkind _, ?_, ?_⟩, hbegins⟩
  · rw [hpack, hfields v]
    rfl
  · intro bs'
    constructor
    · intro h'
      obtain ⟨v', hv', heq⟩ := hread h'
      obtain rfl : v' = v := hfields.injective (hwrap heq)
      exact (Encoding.unpackRecord_bincode_iff.mp hv').2
    · intro hbegins'
      rw [hunpack, Encoding.unpackRecord_bincode_iff.mpr ⟨hfits, hbegins'⟩]
      rfl

/-- A payload that is read begins with the form of the message. -/
theorem unpack_bincode_ok {f : Features} {kind : MessageKind} {bs : Bytes} {m : Message}
    (h : unpack f .bincode bs kind = .ok m) :
    ∃ payload, FormOf f kind m payload ∧ payload <+: bs := by
  cases kind with
  | keepAlive =>
    cases h
    exact ⟨[], ⟨rfl, rfl, fun bs => ⟨fun _ => List.nil_prefix, fun _ => rfl⟩⟩, List.nil_prefix⟩
  | echo =>
    exact formOf_of_record (fun _ _ => Message.echo.inj) EchoMessage.toFields_ofFields
      (fun _ => rfl) (fun _ => rfl) (fun _ => rfl) h
  | reply =>
    exact formOf_of_record (fun _ _ => Message.reply.inj) ReplyMessage.toFields_ofFields
      (fun _ => rfl) (fun _ => rfl) (fun _ => rfl) h
  | chat =>
    exact formOf_of_record (fun _ _ => Message.chat.inj) ChatMessage.toFields_ofFields
      (fun _ => rfl) (fun _ => rfl) (fun _ => rfl) h
  | sync =>
    exact formOf_of_record (fun _ _ => Message.sync.inj) SyncMessage.toFields_ofFields
      (fun _ => rfl) (fun _ => rfl) (fun _ => rfl) h
  | grid =>
    exact formOf_of_record (fun _ _ => Message.grid.inj) GridMessage.toFields_ofFields
      (fun _ => rfl) (fun _ => rfl) (fun _ => rfl) h
  | user =>
    exact formOf_of_record (fun _ _ => Message.user.inj) UserMessage.toFields_ofFields
      (fun _ => rfl) (fun _ => rfl) (fun _ => rfl) h

/-! ## Frames -/

theorem plainPayload_of_plain {frame : Frame} (h : frame.isCompressed = false) (f : Features)
    (limit : Nat) : plainPayload f limit frame = .ok frame.payload := by
  rw [plainPayload, h]
  rfl

/-- A frame that is not compressed is read by its kind and its payload. -/
theorem ofFrame_of_plain {frame : Frame} (h : frame.isCompressed = false) (f : Features)
    (e : Encoding) (limit : Nat) :
    ofFrame f e limit frame =
      match MessageKind.ofCode? frame.kind with
      | none => .error (.unknownKind frame.kind)
      | some kind => unpack f e frame.payload kind := by
  unfold ofFrame
  rw [plainPayload_of_plain h]
  rfl

/-- If a frame that is not compressed is read as a message, it has the code of the message, and its
payload begins with the one that is written for the message. The message is read from every payload
that begins with it, and from no other: also with anything more behind the payload that came. -/
theorem canonical_in_bincode {f : Features} {limit : Nat} {frame : Frame} {m : Message}
    (hplain : frame.isCompressed = false) (h : ofFrame f .bincode limit frame = .ok m) :
    m.kind.code = frame.kind ∧
    ∃ payload, m.toFrame f .bincode false = .ok ⟨frame.kind, 0, payload⟩ ∧
      payload <+: frame.payload ∧
      (∀ other, ofFrame f .bincode limit { frame with payload := other } = .ok m ↔
        payload <+: other) ∧
      ∀ more, ofFrame f .bincode limit { frame with payload := frame.payload ++ more } =
        .ok m := by
  have hread (other : Bytes) :=
    @ofFrame_of_plain { frame with payload := other } hplain f .bincode limit
  rw [ofFrame_of_plain hplain] at h
  cases hkind : MessageKind.ofCode? frame.kind with
  | none =>
    rw [hkind] at h
    cases h
  | some kind =>
    rw [hkind] at h
    obtain ⟨payload, ⟨rfl, hpack, hiff⟩, hbegins⟩ := unpack_bincode_ok h
    have hcode := MessageKind.code_of_ofCode? hkind
    have hall : ∀ other, ofFrame f .bincode limit { frame with payload := other } = .ok m ↔
        payload <+: other := by
      intro other
      rw [hread other]
      simp only [hkind]
      exact hiff other
    refine ⟨hcode, payload, toFrame_plain.mpr ⟨payload, hpack, by rw [hcode]⟩, hbegins, hall, ?_⟩
    intro more
    exact (hall _).mpr (hbegins.trans (List.prefix_append _ _))

/-- An echo without an id, with five bytes that belong to nothing. -/
def trailing : Frame :=
  ⟨MessageKind.echo.code, 6, [0, 1, 2, 0, 0, 0, 0, 0, 0, 0, 7, 8, 9, 9, 9, 9, 9]⟩

/-- The message is read as if they were not there. -/
theorem trailing_bytes_ignored :
    trailing.isCompressed = false ∧
      ofFrame .full .bincode 0 trailing = .ok (.echo ⟨none, true, [7, 8]⟩) ∧
      (Message.echo ⟨none, true, [7, 8]⟩).toFrame .full .bincode false =
        .ok ⟨trailing.kind, 0, [0, 1, 2, 0, 0, 0, 0, 0, 0, 0, 7, 8]⟩ ∧
      ∀ other, ofFrame .full .bincode 0 { trailing with payload := other } =
          .ok (.echo ⟨none, true, [7, 8]⟩) ↔
        [0, 1, 2, 0, 0, 0, 0, 0, 0, 0, 7, 8] <+: other := by
  have hplain : trailing.isCompressed = false := by decide
  have hread : ofFrame .full .bincode 0 trailing = .ok (.echo ⟨none, true, [7, 8]⟩) := by rfl
  obtain ⟨-, payload, hframe, -, hall, -⟩ := canonical_in_bincode hplain hread
  have hwritten : (Message.echo ⟨none, true, [7, 8]⟩).toFrame .full .bincode false =
      .ok ⟨trailing.kind, 0, [0, 1, 2, 0, 0, 0, 0, 0, 0, 0, 7, 8]⟩ := by rfl
  obtain rfl : payload = _ :=
    congrArg Frame.payload (Except.ok.inj (hframe.symm.trans hwritten))
  exact ⟨hplain, hread, hwritten, hall⟩

end Message

end Parley
