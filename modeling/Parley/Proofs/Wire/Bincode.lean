import Parley.Proofs.Text.Utf8
import Parley.Proofs.Wire.Shape
import Parley.Wire.Bincode

/-!
# Bincode reads back what it wrote

A value is read back from its bytes whatever follows them (`Bincode.read_write`), and so is a record
(`Bincode.readRecord_writeRecord`): every value starts with all that is needed to find its end.
Lengths stand in eight bytes, so they have to fit there. They do if the bytes of the whole value are
fewer (`Bincode.fits_of_length`).
-/

namespace Parley

namespace Wire

namespace Bincode

/-- Largest number of things that a length counts, plus one. -/
def lengthLimit : Nat := Bytes.wordCount 8

theorem readNat_ofNatLE (width : Nat) {n : Nat} (h : n < Bytes.wordCount width) (rest : Bytes) :
    readNat width (Bytes.ofNatLE width n ++ rest) = .ok (n, rest) := by
  rw [readNat, Bytes.takeLE?_ofNatLE_append, Nat.mod_eq_of_lt h]

theorem readBlob_writeBlob {bs : Bytes} (h : bs.length < lengthLimit) (rest : Bytes) :
    readBlob (writeBlob bs ++ rest) = .ok (bs, rest) := by
  rw [readBlob, writeBlob, List.append_assoc, readNat_ofNatLE 8 h]
  simp only [Bytes.split?_append]

/-- Items one after another are read back if each of them is. -/
theorem readMany_flatMap {α : Type} {item : Bytes → Except Fault (α × Bytes)} {bytes : α → Bytes}
    {xs : List α} (h : ∀ x ∈ xs, ∀ rest, item (bytes x ++ rest) = .ok (x, rest)) (rest : Bytes) :
    readMany item xs.length (xs.flatMap bytes ++ rest) = .ok (xs, rest) := by
  induction xs with
  | nil => rfl
  | cons x xs ih =>
    have hx := h x List.mem_cons_self
    have hxs := ih fun y hy => h y (List.mem_cons_of_mem _ hy)
    rw [List.length_cons, List.flatMap_cons, List.append_assoc, readMany, hx]
    simp only [hxs]

/-- A value is read back from its bytes, whatever follows. -/
theorem read_write (s : Shape) (v : s.Val) (h : s.Fits lengthLimit v) (rest : Bytes) :
    read s (write s v ++ rest) = .ok (v, rest) := by
  induction s generalizing rest with
  | unit => rfl
  | bool => cases v <;> rfl
  | uint w =>
    have hn : Width.natOf v < Bytes.wordCount w.size := Width.natOf_lt v
    simp only [read, write, readNat_ofNatLE w.size hn, bind, Except.bind, Width.toWord_natOf]
  | int w =>
    -- what is written is the word of the integer, its remainder modulo their number
    have hpos : (w.count : Int) ≠ 0 := by
      have := w.count_pos
      omega
    have hnonneg := Int.emod_nonneg (Width.intOf v) hpos
    have hlt := Int.emod_lt_of_pos (Width.intOf v) (Int.natCast_pos.mpr w.count_pos)
    have hn : (Width.intOf v % w.count).toNat < Bytes.wordCount w.size := by
      show _ < w.count
      omega
    simp only [read, write, readNat_ofNatLE w.size hn, bind, Except.bind, Int.toNat_of_nonneg hnonneg,
      Width.toSigned_emod, Width.toSigned_intOf]
  | text =>
    simp only [read, write, readBlob_writeBlob h, bind, Except.bind, Utf8.decode_encode]
  | bytes => exact readBlob_writeBlob h rest
  | code codes =>
    obtain ⟨c, hc⟩ := v
    simp [read, write, readByte, bind, Except.bind, hc]
  | option s ih =>
    cases v with
    | none => rfl
    | some v =>
      simp only [read, write, readByte, bind, Except.bind, List.cons_append]
      rw [if_neg (by decide)]
      simp only [if_true, ih v h rest]
  | list s ih =>
    obtain ⟨hlength, hitems⟩ := h
    simp only [read, write, List.append_assoc, readNat_ofNatLE 8 hlength, bind, Except.bind]
    exact readMany_flatMap (fun v hv rest => ih v (hitems v hv) rest) rest
  | pair a b iha ihb =>
    obtain ⟨x, y⟩ := v
    simp only [read, write, List.append_assoc, iha x h.1, ihb y h.2, bind, Except.bind]

/-- A record is read back from its bytes, whatever follows. -/
theorem readRecord_writeRecord (r : Record) (v : r.Val) (h : r.Fits lengthLimit v) (rest : Bytes) :
    readRecord r (writeRecord r v ++ rest) = .ok (v, rest) := by
  induction r with
  | nil => rfl
  | cons f fs ih =>
    obtain ⟨v, vs⟩ := v
    simp only [readRecord, writeRecord, List.append_assoc, read_write f.shape v h.1, ih vs h.2, bind,
      Except.bind]

/-! ## Lengths -/

/-- Every value takes some room. -/
theorem write_length_pos {s : Shape} (hs : s.isPlain) (v : s.Val) : 0 < (write s v).length := by
  induction s with
  | unit => cases hs
  | bool => exact Nat.one_pos
  | uint w => cases w <;> simp [write, Width.size]
  | int w => cases w <;> simp [write, Width.size]
  | text =>
    simp only [write, writeBlob, List.length_append, Bytes.length_ofNatLE]
    omega
  | bytes =>
    simp only [write, writeBlob, List.length_append, Bytes.length_ofNatLE]
    omega
  | code codes => exact Nat.one_pos
  | option s ih => cases v <;> simp [write]
  | list s ih =>
    simp only [write, List.length_append, Bytes.length_ofNatLE]
    omega
  | pair a b iha ihb =>
    obtain ⟨x, y⟩ := v
    simp only [Shape.isPlain, Bool.and_eq_true] at hs
    have hx := iha hs.1 x
    simp only [write, List.length_append]
    omega

/-- All lengths in a value are below a limit that its bytes stay below. -/
theorem fits_of_length {limit : Nat} {s : Shape} (hs : s.isPlain) (v : s.Val)
    (h : (write s v).length < limit) : s.Fits limit v := by
  induction s with
  | unit => trivial
  | bool => trivial
  | uint w => trivial
  | int w => trivial
  | text =>
    simp only [write, writeBlob, List.length_append] at h
    exact Nat.lt_of_le_of_lt (Nat.le_add_left _ _) h
  | bytes =>
    simp only [write, writeBlob, List.length_append] at h
    exact Nat.lt_of_le_of_lt (Nat.le_add_left _ _) h
  | code codes => trivial
  | option s ih =>
    cases v with
    | none => trivial
    | some v =>
      simp only [write, List.length_cons] at h
      exact ih (Shape.isPlain_of_option hs) v (by omega)
  | list s ih =>
    have hitem : s.isPlain := hs
    simp only [write, List.length_append] at h
    -- each item takes a byte at least, so there are no more items than bytes
    have hcount := count_le_flatMap v fun x _ => write_length_pos hitem x
    refine ⟨by omega, ?_⟩
    intro x hx
    have hle := length_le_flatMap (write s) hx
    exact ih hitem x (by omega)
  | pair a b iha ihb =>
    obtain ⟨x, y⟩ := v
    simp only [Shape.isPlain, Bool.and_eq_true] at hs
    simp only [write, List.length_append] at h
    exact ⟨iha hs.1 x (by omega), ihb hs.2 y (by omega)⟩

/-- All lengths in a record are below a limit that its bytes stay below. -/
theorem fitsRecord_of_length (limit : Nat) {r : Record} (hr : r.isPlain) (v : r.Val)
    (h : (writeRecord r v).length < limit) : r.Fits limit v := by
  induction r with
  | nil => trivial
  | cons f fs ih =>
    obtain ⟨v, vs⟩ := v
    rw [Record.isPlain_cons] at hr
    simp only [writeRecord, List.length_append] at h
    exact ⟨fits_of_length hr.1 v (by omega), ih hr.2 vs (by omega)⟩

end Bincode

end Wire

end Parley
