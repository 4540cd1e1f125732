import Parley.Proofs.Wire.Bincode
import Parley.Proofs.Wire.JsonText
import Parley.Proofs.Wire.MessagePack
import Parley.Wire.Encoding

/-!
# Every encoding reads back what it wrote

The binary encodings count texts, byte strings and lists in words of limited width, so they read
back what they can count; a text counts nothing.

- `Encoding.unpack_pack`, `Encoding.unpackRecord_of_fits`: what can be counted is read back.
- `Encoding.fits_of_pack`, `Encoding.fits_of_packRecord`: what takes few bytes can be counted.
- `Encoding.unpackRecord_packRecord`: a record is read back, if its bytes can be counted in four.
-/

namespace Parley

open Wire

/-- What the encodings need to tell the values of a record apart. -/
structure Wire.Record.Sound (r : Record) : Prop where
  plain : r.isPlain
  names : (r.map Field.name).Nodup
  count : r.length < MessagePack.lengthLimit

namespace Encoding

/-- How far an encoding can count. -/
def countLimit? : Encoding → Option Nat
  | bincode => some Bincode.lengthLimit
  | messagePack => some MessagePack.lengthLimit
  | json => none

theorem wordCount_le_countLimit {e : Encoding} {limit : Nat} (h : limit ∈ e.countLimit?) :
    Bytes.wordCount 4 ≤ limit := by
  cases e with
  | bincode =>
    obtain rfl := Option.mem_some.mp h
    decide
  | messagePack =>
    obtain rfl := Option.mem_some.mp h
    exact Nat.le_refl _
  | json => cases h

/-- What is packed needs its encoding built in. -/
theorem pack_ok {f : Features} {e : Encoding} {s : Shape} {v : s.Val} {bs : Bytes}
    (h : e.pack f s v = .ok bs) : e.require f = .ok () ∧ e.pack .full s v = .ok bs := by
  unfold pack at h ⊢
  rw [require_full]
  cases hrequire : e.require f with
  | error err =>
    rw [hrequire] at h
    cases h
  | ok =>
    rw [hrequire] at h
    exact ⟨rfl, h⟩

theorem packRecord_ok {f : Features} {e : Encoding} {r : Record} {v : r.Val} {bs : Bytes}
    (h : e.packRecord f r v = .ok bs) :
    e.require f = .ok () ∧ e.packRecord .full r v = .ok bs := by
  unfold packRecord at h ⊢
  rw [require_full]
  cases hrequire : e.require f with
  | error err =>
    rw [hrequire] at h
    cases h
  | ok =>
    rw [hrequire] at h
    exact ⟨rfl, h⟩

/-! ## Read back -/

/-- A value is read back, if the encoding can count its parts. -/
theorem unpack_pack {f : Features} {e : Encoding} {s : Shape} (hs : s.isPlain) {v : s.Val}
    {bs : Bytes} (h : e.pack f s v = .ok bs) (hfits : ∀ limit ∈ e.countLimit?, s.Fits limit v) :
    e.unpack f s bs = .ok v := by
  obtain ⟨hrequire, hfull⟩ := pack_ok h
  unfold unpack
  rw [hrequire]
  cases e with
  | bincode =>
    cases hfull
    have hread := Bincode.read_write s v (hfits _ rfl) []
    rw [List.append_nil] at hread
    simp only [bind, Except.bind, hread]
  | messagePack =>
    cases hfull
    have hread := MessagePack.read_write hs v (hfits _ rfl) []
    rw [List.append_nil] at hread
    simp only [bind, Except.bind, hread]
  | json =>
    cases hfull
    simp only [bind, Except.bind, JsonText.read?_write hs v]

/-- A record is read back, if the encoding can count its parts. -/
theorem unpackRecord_of_fits {f : Features} {e : Encoding} {r : Record} (hr : r.Sound)
    {v : r.Val} {bs : Bytes} (h : e.packRecord f r v = .ok bs)
    (hfits : ∀ limit ∈ e.countLimit?, r.Fits limit v) : e.unpackRecord f r bs = .ok v := by
  obtain ⟨hrequire, hfull⟩ := packRecord_ok h
  unfold unpackRecord
  rw [hrequire]
  cases e with
  | bincode =>
    cases hfull
    have hread := Bincode.readRecord_writeRecord r v (hfits _ rfl) []
    rw [List.append_nil] at hread
    simp only [bind, Except.bind, hread]
  | messagePack =>
    cases hfull
    have hread := MessagePack.readRecord_writeRecord hr.plain hr.count v (hfits _ rfl) []
    rw [List.append_nil] at hread
    simp only [bind, Except.bind, hread]
  | json =>
    cases hfull
    have hread := JsonText.readRecord?_writeRecord hr.plain hr.names v
    simp only [bind, Except.bind, hread]

/-! ## What can be counted -/

/-- What takes fewer bytes than an encoding can count, it can count. -/
theorem fits_of_pack {f : Features} {e : Encoding} {s : Shape} (hs : s.isPlain) {v : s.Val}
    {bs : Bytes} (h : e.pack f s v = .ok bs) {limit : Nat} (hlimit : limit ∈ e.countLimit?)
    (hlength : bs.length < limit) : s.Fits limit v := by
  obtain ⟨-, hfull⟩ := pack_ok h
  cases e with
  | bincode =>
    cases hfull
    exact Bincode.fits_of_length hs v hlength
  | messagePack =>
    cases hfull
    exact MessagePack.fits_of_length v hlength
  | json => cases hlimit

theorem fits_of_packRecord {f : Features} {e : Encoding} {r : Record} (hr : r.isPlain) {v : r.Val}
    {bs : Bytes} (h : e.packRecord f r v = .ok bs) {limit : Nat} (hlimit : limit ∈ e.countLimit?)
    (hlength : bs.length < limit) : r.Fits limit v := by
  obtain ⟨-, hfull⟩ := packRecord_ok h
  cases e with
  | bincode =>
    cases hfull
    exact Bincode.fitsRecord_of_length limit hr v hlength
  | messagePack =>
    cases hfull
    exact MessagePack.fitsRecord_of_length limit v hlength
  | json => cases hlimit

/-- A record is read back, if its bytes can be counted in four. -/
theorem unpackRecord_packRecord {f : Features} {e : Encoding} {r : Record} (hr : r.Sound)
    {v : r.Val} {bs : Bytes} (h : e.packRecord f r v = .ok bs)
    (hlength : bs.length < Bytes.wordCount 4) : e.unpackRecord f r bs = .ok v := by
  refine unpackRecord_of_fits hr h ?_
  intro limit hlimit
  exact fits_of_packRecord hr.plain h hlimit
    (Nat.lt_of_lt_of_le hlength (wordCount_le_countLimit hlimit))

end Encoding

end Parley
