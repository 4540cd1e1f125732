import Parley.Proofs.Text.Canonical
import Parley.Proofs.Wire.Bincode
import Parley.Proofs.Wire.Splitting

/-!
# Bincode has one form for a value

Numbers take all their bytes, a truth value and an option tag are one of two bytes, a code is one out
of its set, and a text has one form in UTF-8. So a value is read from the bytes that would be written
for it, and from no others (`Bincode.read_eq_ok_iff`), and a record is, too
(`Bincode.readRecord_eq_ok_iff`).
-/

namespace Parley

namespace Wire

namespace Width

/-- Every number below the number of words has a word. -/
theorem natOf_toWord {w : Width} {n : Nat} (h : n < w.count) : natOf (w.toWord n) = n := by
  cases w with
  | w8 => exact UInt8.toNat_ofNat_of_lt' h
  | w16 => exact UInt16.toNat_ofNat_of_lt' h
  | w32 => exact UInt32.toNat_ofNat_of_lt' h
  | w64 => exact UInt64.toNat_ofNat_of_lt' h

/-- A signed word is its number modulo the number of words. -/
theorem intOf_toSigned_emod (w : Width) (n : Int) : intOf (w.toSigned n) % w.count = n % w.count := by
  cases w with
  | w8 => exact (congrArg (· % (2 ^ 8 : Int)) Int8.toInt_ofInt).trans (Int.bmod_emod ..)
  | w16 => exact (congrArg (· % (2 ^ 16 : Int)) Int16.toInt_ofInt).trans (Int.bmod_emod ..)
  | w32 => exact (congrArg (· % (2 ^ 32 : Int)) Int32.toInt_ofInt).trans (Int.bmod_emod ..)
  | w64 => exact (congrArg (· % (2 ^ 64 : Int)) Int64.toInt_ofInt).trans (Int.bmod_emod ..)

/-- Every number below the number of words has a signed word. -/
theorem emod_intOf_toSigned {w : Width} {n : Nat} (h : n < w.count) :
    (intOf (w.toSigned n) % w.count).toNat = n := by
  rw [intOf_toSigned_emod, Int.emod_eq_of_lt (Int.natCast_nonneg n) (Int.ofNat_lt.mpr h),
    Int.toNat_natCast]

end Width

namespace Bincode

/-! ## Parts of values -/

theorem readNat_ok {width n : Nat} {bs rest : Bytes} (h : readNat width bs = .ok (n, rest)) :
    n < Bytes.wordCount width ∧ bs = Bytes.ofNatLE width n ++ rest := by
  unfold readNat at h
  cases hword : Bytes.takeLE? width bs with
  | none =>
    rw [hword] at h
    cases h
  | some p =>
    rw [hword] at h
    cases h
    exact Bytes.takeLE?_eq_some_iff.mp hword

theorem readBlob_ok {bs blob rest : Bytes} (h : readBlob bs = .ok (blob, rest)) :
    blob.length < lengthLimit ∧ bs = writeBlob blob ++ rest := by
  unfold readBlob at h
  cases hlength : readNat 8 bs with
  | error fault =>
    rw [hlength] at h
    cases h
  | ok p =>
    obtain ⟨n, tail⟩ := p
    obtain ⟨hlt, rfl⟩ := readNat_ok hlength
    rw [hlength] at h
    cases hsplit : Bytes.split? n tail with
    | none =>
      simp only [hsplit] at h
      cases h
    | some q =>
      obtain ⟨front, back⟩ := q
      simp only [hsplit] at h
      cases h
      obtain ⟨rfl, rfl⟩ := Bytes.eq_append_of_split? hsplit
      exact ⟨hlt, by rw [writeBlob, List.append_assoc]⟩

theorem readByte_ok {b : UInt8} {bs rest : Bytes} (h : readByte bs = .ok (b, rest)) :
    bs = b :: rest := by
  cases bs <;> cases h
  rfl

/-- Items that are read one after another are written one after another. -/
theorem readMany_ok {α : Type} {item : Bytes → Except Fault (α × Bytes)} {bytes : α → Bytes}
    {P : α → Prop} (hitem : ∀ x bs rest, item bs = .ok (x, rest) → P x ∧ bs = bytes x ++ rest)
    {n : Nat} {bs rest : Bytes} {xs : List α} (h : readMany item n bs = .ok (xs, rest)) :
    xs.length = n ∧ (∀ x ∈ xs, P x) ∧ bs = xs.flatMap bytes ++ rest := by
  fun_induction readMany item n bs generalizing xs rest with
  | case1 bs =>
    cases h
    exact ⟨rfl, nofun, rfl⟩
  | case4 n bs x tail hx ys back hys ih =>
    cases h
    obtain ⟨hP, rfl⟩ := hitem x bs tail hx
    obtain ⟨hlength, hall, htail⟩ := ih hys
    refine ⟨congrArg (· + 1) hlength, ?_, ?_⟩
    · exact List.forall_mem_cons.mpr ⟨hP, hall⟩
    · rw [htail, List.flatMap_cons, List.append_assoc]
  | _ => cases h

/-! ## Values -/

/-- What comes out of two readings, one after the other. -/
theorem bind_ok {α β ε : Type} {r : Except ε α} {f : α → Except ε β} {y : β}
    (h : (r >>= f) = .ok y) : ∃ x, r = .ok x ∧ f x = .ok y := by
  cases r with
  | error e => cases h
  | ok x => exact ⟨x, rfl, h⟩

/-- A value that is read stands in front of what is left, in the form in which it is written. -/
theorem read_ok (s : Shape) {bs rest : Bytes} {v : s.Val} (h : read s bs = .ok (v, rest)) :
    s.Fits lengthLimit v ∧ bs = write s v ++ rest := by
  induction s generalizing bs rest with
  | unit =>
    cases h
    exact ⟨trivial, rfl⟩
  | bool =>
    rw [read] at h
    obtain ⟨⟨b, tail⟩, hbyte, hv⟩ := bind_ok h
    rw [readByte_ok hbyte]
    by_cases h0 : b = 0
    · simp only [h0, if_true] at hv
      cases hv
      exact ⟨trivial, by rw [h0]; rfl⟩
    · by_cases h1 : b = 1
      · simp only [h1, if_true] at hv
        cases hv
        exact ⟨trivial, by rw [h1]; rfl⟩
      · simp only [h0, h1, if_false] at hv
        cases hv
  | uint w =>
    rw [read] at h
    obtain ⟨⟨n, tail⟩, hword, hv⟩ := bind_ok h
    obtain ⟨hlt, rfl⟩ := readNat_ok hword
    cases hv
    exact ⟨trivial, by rw [write, Width.natOf_toWord hlt]⟩
  | int w =>
    rw [read] at h
    obtain ⟨⟨n, tail⟩, hword, hv⟩ := bind_ok h
    obtain ⟨hlt, rfl⟩ := readNat_ok hword
    cases hv
    exact ⟨trivial, by rw [write, Width.emod_intOf_toSigned hlt]⟩
  | text =>
    rw [read] at h
    obtain ⟨⟨blob, tail⟩, hblob, hv⟩ := bind_ok h
    obtain ⟨hlt, rfl⟩ := readBlob_ok hblob
    cases htext : Utf8.decode blob with
    | error fault =>
      simp only [htext] at hv
      cases hv
    | ok text =>
      simp only [htext] at hv
      cases hv
      have hback := Utf8.encode_of_decode htext
      refine ⟨?_, by rw [write, hback]⟩
      show (Utf8.encode _).length < lengthLimit
      rw [hback]
      exact hlt
  | bytes => exact readBlob_ok h
  | code codes =>
    rw [read] at h
    obtain ⟨⟨b, tail⟩, hbyte, hv⟩ := bind_ok h
    rw [readByte_ok hbyte]
    by_cases hb : b ∈ codes
    · simp only [dif_pos hb] at hv
      cases hv
      exact ⟨trivial, rfl⟩
    · simp only [dif_neg hb] at hv
      cases hv
  | option s ih =>
    rw [read] at h
    obtain ⟨⟨b, tail⟩, hbyte, hv⟩ := bind_ok h
    rw [readByte_ok hbyte]
    by_cases h0 : b = 0
    · simp only [h0, if_true] at hv
      cases hv
      exact ⟨trivial, by rw [h0]; rfl⟩
    · by_cases h1 : b = 1
      · simp only [h1, if_true] at hv
        obtain ⟨⟨x, back⟩, hx, hv⟩ := bind_ok hv
        cases hv
        obtain ⟨hfits, rfl⟩ := ih hx
        exact ⟨hfits, by rw [h1]; rfl⟩
      · simp only [h0, h1, if_false] at hv
        cases hv
  | list s ih =>
    rw [read] at h
    obtain ⟨⟨n, tail⟩, hlength, hv⟩ := bind_ok h
    obtain ⟨hlt, rfl⟩ := readNat_ok hlength
    obtain ⟨rfl, hfits, rfl⟩ := readMany_ok (fun _ _ _ => ih) hv
    exact ⟨⟨hlt, hfits⟩, by rw [write, List.append_assoc]⟩
  | pair a b iha ihb =>
    rw [read] at h
    obtain ⟨⟨x, tail⟩, hx, hv⟩ := bind_ok h
    obtain ⟨⟨y, back⟩, hy, hv⟩ := bind_ok hv
    cases hv
    obtain ⟨hfitsx, rfl⟩ := iha hx
    obtain ⟨hfitsy, rfl⟩ := ihb hy
    exact ⟨⟨hfitsx, hfitsy⟩, by rw [write, List.append_assoc]⟩

/-- A value is read from what is written for it, whatever follows, and from nothing else. -/
theorem read_eq_ok_iff (s : Shape) {bs rest : Bytes} {v : s.Val} :
    read s bs = .ok (v, rest) ↔ s.Fits lengthLimit v ∧ bs = write s v ++ rest := by
  refine ⟨read_ok s, ?_⟩
  rintro ⟨hfits, rfl⟩
  exact read_write s v hfits rest

/-- A record is read from what is written for it, whatever follows, and from nothing else. -/
theorem readRecord_eq_ok_iff (r : Record) {bs rest : Bytes} {v : r.Val} :
    readRecord r bs = .ok (v, rest) ↔
      r.Fits lengthLimit v ∧ bs = writeRecord r v ++ rest := by
  constructor
  · intro h
    induction r generalizing bs with
    | nil =>
      cases h
      exact ⟨trivial, rfl⟩
    | cons f fs ih =>
      rw [readRecord] at h
      obtain ⟨⟨x, tail⟩, hx, hv⟩ := bind_ok h
      obtain ⟨⟨xs, back⟩, hxs, hv⟩ := bind_ok hv
      cases hv
      obtain ⟨hfits, rfl⟩ := (read_eq_ok_iff f.shape).mp hx
      obtain ⟨hfits', rfl⟩ := ih hxs
      exact ⟨⟨hfits, hfits'⟩, by rw [writeRecord, List.append_assoc]⟩
  · rintro ⟨hfits, rfl⟩
    exact readRecord_writeRecord r v hfits rest

end Bincode

end Wire

end Parley
