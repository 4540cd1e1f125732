import Parley.Proofs.Text.Utf8
import Parley.Proofs.Wire.Shape
import Parley.Wire.MessagePack

/-!
# MessagePack reads back what it wrote

Each way to start a value is read as what it announces (`head?_writeNat`, `head?_textHead` and their
fellows), so a value is read back from its bytes whatever follows them (`MessagePack.read_write`),
and so is a record (`MessagePack.readRecord_writeRecord`). Lengths and counts have four bytes at
most, so they have to fit there. They do if the bytes of the whole value are fewer
(`MessagePack.fits_of_length`).
-/

namespace Parley

namespace Wire

namespace MessagePack

/-- Largest number of things that a head counts, plus one. -/
def lengthLimit : Nat := Bytes.wordCount 4

theorem length_wordBE (width n : Nat) : (wordBE width n).length = width := by
  rw [wordBE, List.length_reverse, Bytes.length_ofNatLE]

theorem takeBE?_wordBE (width : Nat) {n : Nat} (h : n < Bytes.wordCount width) (rest : Bytes) :
    takeBE? width (wordBE width n ++ rest) = some (n, rest) := by
  have hsplit := Bytes.split?_append (wordBE width n) rest
  rw [length_wordBE] at hsplit
  rw [takeBE?, hsplit, Option.map_some]
  dsimp only
  rw [wordBE, List.reverse_reverse, Bytes.toNatLE_ofNatLE, Nat.mod_eq_of_lt h]

/-! ## Heads -/

/-- A marker with a word behind it is read as what it announces of the word. -/
theorem map_takeBE?_wordBE (head : Nat → Head) (width : Nat) {n : Nat}
    (h : n < Bytes.wordCount width) (rest : Bytes) :
    (takeBE? width (wordBE width n ++ rest)).map (fun (n, rest) => (head n, rest)) =
      some (head n, rest) := by
  rw [takeBE?_wordBE width h, Option.map_some]

/-- A marker below 0x80 is a number. -/
theorem head?_ofNat_int {n : Nat} (h : n < 128) (rest : Bytes) :
    head? (UInt8.ofNat n :: rest) = some (.int n, rest) := by
  have hm := UInt8.toNat_ofNat_of_lt' (show n < 256 by omega)
  have hlt : UInt8.ofNat n < 0x80 := by
    rw [UInt8.lt_iff_toNat_lt, hm]
    exact h
  rw [head?, if_pos hlt, hm]

/-- A marker from 0x90 up to 0x9F starts a short array. -/
theorem head?_ofNat_array {n : Nat} (h : n < 16) (rest : Bytes) :
    head? (UInt8.ofNat (0x90 + n) :: rest) = some (.array n, rest) := by
  have hm := UInt8.toNat_ofNat_of_lt' (show 0x90 + n < 256 by omega)
  have h1 : ¬ UInt8.ofNat (0x90 + n) < 0x80 := by
    rw [UInt8.lt_iff_toNat_lt, hm]
    exact Nat.not_lt.mpr (show 0x80 ≤ 0x90 + n by omega)
  have h2 : ¬ UInt8.ofNat (0x90 + n) < 0x90 := by
    rw [UInt8.lt_iff_toNat_lt, hm]
    exact Nat.not_lt.mpr (show 0x90 ≤ 0x90 + n by omega)
  have h3 : UInt8.ofNat (0x90 + n) < 0xA0 := by
    rw [UInt8.lt_iff_toNat_lt, hm]
    show 0x90 + n < 0xA0
    omega
  rw [head?, if_neg h1, if_neg h2, if_pos h3, hm, Nat.add_sub_cancel_left]

/-- A marker from 0xA0 up to 0xBF starts a short text. -/
theorem head?_ofNat_text {n : Nat} (h : n < 32) (rest : Bytes) :
    head? (UInt8.ofNat (0xA0 + n) :: rest) = some (.text n, rest) := by
  have hm := UInt8.toNat_ofNat_of_lt' (show 0xA0 + n < 256 by omega)
  have hge : ∀ k : UInt8, k ≤ 0xA0 → ¬ UInt8.ofNat (0xA0 + n) < k := by
    intro k hk
    rw [UInt8.lt_iff_toNat_lt, hm]
    have hk' : k.toNat ≤ 0xA0 := UInt8.le_iff_toNat_le.mp hk
    omega
  have hlt : UInt8.ofNat (0xA0 + n) < 0xC0 := by
    rw [UInt8.lt_iff_toNat_lt, hm]
    show 0xA0 + n < 0xC0
    omega
  rw [head?, if_neg (hge _ (by decide)), if_neg (hge _ (by decide)), if_neg (hge _ (by decide)),
    if_pos hlt, hm, Nat.add_sub_cancel_left]

theorem head?_writeNat {n : Nat} (h : n < Bytes.wordCount 8) (rest : Bytes) :
    head? (writeNat n ++ rest) = some (.int n, rest) := by
  unfold writeNat
  by_cases h1 : n < 128
  · rw [if_pos h1]
    exact head?_ofNat_int h1 rest
  rw [if_neg h1]
  by_cases h2 : n < 256
  · rw [if_pos h2]
    exact map_takeBE?_wordBE (fun n => .int n) 1 h2 rest
  rw [if_neg h2]
  by_cases h3 : n < 65536
  · rw [if_pos h3]
    exact map_takeBE?_wordBE (fun n => .int n) 2 h3 rest
  rw [if_neg h3]
  by_cases h4 : n < 4294967296
  · rw [if_pos h4]
    exact map_takeBE?_wordBE (fun n => .int n) 4 h4 rest
  · rw [if_neg h4]
    exact map_takeBE?_wordBE (fun n => .int n) 8 h rest

/-- A marker from 0xE0 on is a small number below zero. -/
theorem head?_negative {m : UInt8} (h : 0xE0 ≤ m) (rest : Bytes) :
    head? (m :: rest) = some (.int (signedOf 1 m.toNat), rest) := by
  have hlt : ∀ k : UInt8, k ≤ 0xE0 → ¬ m < k := fun k hk =>
    UInt8.not_lt.mpr (UInt8.le_trans hk h)
  have hne : ∀ k : UInt8, k < 0xE0 → ¬ m = k := by
    rintro k hk rfl
    exact UInt8.not_lt.mpr h hk
  have hle : ¬ m ≤ 0xD8 := UInt8.not_le.mpr (UInt8.lt_of_lt_of_le (by decide) h)
  simp (disch := decide) only [head?, hlt, hne, hle, h, if_false, if_true, decide_false,
    Bool.and_false, Bool.false_eq_true]

theorem lowWord_of_lt {n : Nat} (h : n < lengthLimit) : lowWord n = n :=
  Nat.mod_eq_of_lt h

theorem head?_textHead {n : Nat} (h : n < lengthLimit) (rest : Bytes) :
    head? (textHead n ++ rest) = some (.text n, rest) := by
  simp only [textHead, lowWord_of_lt h]
  by_cases h1 : n < 32
  · rw [if_pos h1]
    exact head?_ofNat_text h1 rest
  rw [if_neg h1]
  by_cases h2 : n < 256
  · rw [if_pos h2]
    exact map_takeBE?_wordBE .text 1 h2 rest
  rw [if_neg h2]
  by_cases h3 : n < 65536
  · rw [if_pos h3]
    exact map_takeBE?_wordBE .text 2 h3 rest
  · rw [if_neg h3]
    exact map_takeBE?_wordBE .text 4 h rest

theorem head?_bytesHead {n : Nat} (h : n < lengthLimit) (rest : Bytes) :
    head? (bytesHead n ++ rest) = some (.bytes n, rest) := by
  simp only [bytesHead, lowWord_of_lt h]
  by_cases h1 : n < 256
  · rw [if_pos h1]
    exact map_takeBE?_wordBE .bytes 1 h1 rest
  rw [if_neg h1]
  by_cases h2 : n < 65536
  · rw [if_pos h2]
    exact map_takeBE?_wordBE .bytes 2 h2 rest
  · rw [if_neg h2]
    exact map_takeBE?_wordBE .bytes 4 h rest

theorem head?_arrayHead {n : Nat} (h : n < lengthLimit) (rest : Bytes) :
    head? (arrayHead n ++ rest) = some (.array n, rest) := by
  simp only [arrayHead, lowWord_of_lt h]
  by_cases h1 : n < 16
  · rw [if_pos h1]
    exact head?_ofNat_array h1 rest
  rw [if_neg h1]
  by_cases h2 : n < 65536
  · rw [if_pos h2]
    exact map_takeBE?_wordBE .array 2 h2 rest
  · rw [if_neg h2]
    exact map_takeBE?_wordBE .array 4 h rest

/-- A number below zero is found again from its word. -/
theorem signedOf_toNat {width : Nat} {n : Int} {m : Nat} (hm : Bytes.wordCount width = m)
    (hneg : n < 0) (hlow : -m ≤ 2 * n) : signedOf width (n + m).toNat = n := by
  have hcast : ((n + m).toNat : Int) = n + m := Int.toNat_of_nonneg (by omega)
  have hge : ¬ 2 * (n + m).toNat < Bytes.wordCount width := by omega
  rw [signedOf, if_neg hge, hcast, hm, Int.add_sub_cancel]

/-- A marker with the word of a number below zero behind it is read as that number. -/
theorem map_takeBE?_wordBE_signed (width : Nat) {n : Int} {m : Nat} (hm : Bytes.wordCount width = m)
    (hneg : n < 0) (hlow : -m ≤ 2 * n) (rest : Bytes) :
    (takeBE? width (wordBE width (n + m).toNat ++ rest)).map
      (fun (n, rest) => (Head.int (signedOf width n), rest)) = some (.int n, rest) := by
  have hlt : (n + m).toNat < Bytes.wordCount width := by omega
  rw [map_takeBE?_wordBE (fun n => .int (signedOf width n)) width hlt, signedOf_toNat hm hneg hlow]

theorem head?_writeInt {n : Int} (hlow : -18446744073709551616 ≤ 2 * n)
    (hhigh : n < 18446744073709551616) (rest : Bytes) :
    head? (writeInt n ++ rest) = some (.int n, rest) := by
  unfold writeInt
  by_cases h0 : 0 ≤ n
  · have hlt : n.toNat < Bytes.wordCount 8 := by
      show n.toNat < 18446744073709551616
      omega
    rw [if_pos h0, head?_writeNat hlt, Int.toNat_of_nonneg h0]
  rw [if_neg h0]
  by_cases h1 : -32 ≤ n
  · -- the marker is the number itself, in two's complement
    have hm := UInt8.toNat_ofNat_of_lt' (show (n + 256).toNat < 256 by omega)
    have hge : 0xE0 ≤ UInt8.ofNat (n + 256).toNat := by
      rw [UInt8.le_iff_toNat_le, hm]
      show 224 ≤ (n + 256).toNat
      omega
    have hback : signedOf 1 (n + 256).toNat = n :=
      signedOf_toNat (m := 256) rfl (by omega) (by omega)
    rw [if_pos h1, List.singleton_append, head?_negative hge, hm, hback]
  rw [if_neg h1]
  by_cases h2 : -128 ≤ n
  · rw [if_pos h2]
    exact map_takeBE?_wordBE_signed (m := 256) 1 rfl (by omega) (by omega) rest
  rw [if_neg h2]
  by_cases h3 : -32768 ≤ n
  · rw [if_pos h3]
    exact map_takeBE?_wordBE_signed (m := 65536) 2 rfl (by omega) (by omega) rest
  rw [if_neg h3]
  by_cases h4 : -2147483648 ≤ n
  · rw [if_pos h4]
    exact map_takeBE?_wordBE_signed (m := 4294967296) 4 rfl (by omega) (by omega) rest
  · rw [if_neg h4]
    exact map_takeBE?_wordBE_signed (m := 18446744073709551616) 8 rfl (by omega) (by omega) rest

/-! ## Values -/

theorem readWord_writeNat {w : Width} (n : w.Word) (rest : Bytes) :
    readWord w (writeNat (Width.natOf n) ++ rest) = some (n, rest) := by
  have hlt : Width.natOf n < Bytes.wordCount 8 :=
    Nat.lt_of_lt_of_le (Width.natOf_lt n) (by cases w <;> decide)
  rw [readWord, readInt, head?_writeNat hlt]
  dsimp only
  rw [Width.word?_natOf]
  rfl

/-- Items one after another are read back if each of them is. -/
theorem readMany_flatMap {α : Type} {item : Bytes → Option (α × Bytes)} {bytes : α → Bytes}
    {xs : List α} (h : ∀ x ∈ xs, ∀ rest, item (bytes x ++ rest) = some (x, rest)) (rest : Bytes) :
    readMany item xs.length (xs.flatMap bytes ++ rest) = some (xs, rest) := by
  induction xs with
  | nil => rfl
  | cons x xs ih =>
    have hx := h x List.mem_cons_self
    have hxs := ih fun y hy => h y (List.mem_cons_of_mem _ hy)
    rw [List.length_cons, List.flatMap_cons, List.append_assoc, readMany, hx]
    simp only [hxs]

/-- A value that shows does not start like a missing one. -/
theorem head?_write {s : Shape} (hs : (Shape.option s).isPlain) (v : s.Val)
    (h : s.Fits lengthLimit v) (rest : Bytes) :
    ∃ head after, head? (write s v ++ rest) = some (head, after) ∧ head ≠ .null := by
  cases s with
  | unit => cases hs
  | bool => cases v <;> exact ⟨_, _, rfl, by decide⟩
  | uint w =>
    have hlt : Width.natOf v < Bytes.wordCount 8 :=
      Nat.lt_of_lt_of_le (Width.natOf_lt v) (by cases w <;> decide)
    exact ⟨_, _, head?_writeNat hlt rest, Head.noConfusion⟩
  | int w =>
    obtain ⟨hlow, hhigh⟩ := Width.intOf_bounds v
    have hcount : (w.count : Int) ≤ 18446744073709551616 := by cases w <;> decide
    exact ⟨_, _, head?_writeInt (by omega) (by omega) rest, Head.noConfusion⟩
  | text =>
    simp only [write, List.append_assoc]
    exact ⟨_, _, head?_textHead h _, Head.noConfusion⟩
  | bytes =>
    simp only [write, List.append_assoc]
    exact ⟨_, _, head?_bytesHead h _, Head.noConfusion⟩
  | code codes =>
    have hlt : v.val.toNat < Bytes.wordCount 8 := Nat.lt_of_lt_of_le v.val.toNat_lt (by decide)
    exact ⟨_, _, head?_writeNat hlt rest, Head.noConfusion⟩
  | option s => cases hs
  | list s =>
    simp only [write, List.append_assoc]
    exact ⟨_, _, head?_arrayHead h.1 _, Head.noConfusion⟩
  | pair a b =>
    simp only [write, List.append_assoc]
    exact ⟨_, _, head?_arrayHead (by decide) _, Head.noConfusion⟩

/-- A value is read back from its bytes, whatever follows. -/
theorem read_write {s : Shape} (hs : s.isPlain) (v : s.Val) (h : s.Fits lengthLimit v)
    (rest : Bytes) : read s (write s v ++ rest) = some (v, rest) := by
  induction s generalizing rest with
  | unit => rfl
  | bool => cases v <;> rfl
  | uint w => exact readWord_writeNat v rest
  | int w =>
    obtain ⟨hlow, hhigh⟩ := Width.intOf_bounds v
    have hcount : (w.count : Int) ≤ 18446744073709551616 := by cases w <;> decide
    simp only [read, readInt, write, head?_writeInt (n := Width.intOf v) (by omega) (by omega),
      Width.signed?_intOf, Option.map_some]
  | text =>
    simp only [read, write, List.append_assoc, head?_textHead h, Bytes.split?_append,
      Utf8.decode?_encode, Option.map_some]
  | bytes =>
    simp only [read, write, List.append_assoc, head?_bytesHead h, Bytes.split?_append]
  | code codes =>
    obtain ⟨c, hc⟩ := v
    have hword : readWord .w8 (writeNat c.toNat ++ rest) = some (c, rest) :=
      readWord_writeNat (w := .w8) c rest
    simp only [read, write, hword, Shape.codeOf?_mem hc, Option.map_some]
  | option s ih =>
    cases v with
    | none => rfl
    | some v =>
      -- the reader looks at the head alone to tell whether the value is missing
      obtain ⟨head, after, hhead, hnull⟩ := head?_write hs v h rest
      have hback := ih (Shape.isPlain_of_option hs) v h rest
      simp only [read, write, hhead]
      cases head with
      | null => exact absurd rfl hnull
      | _ => simp only [hback]
  | list s ih =>
    obtain ⟨hlength, hitems⟩ := h
    simp only [read, write, List.append_assoc, head?_arrayHead hlength]
    exact readMany_flatMap (fun v hv rest => ih hs v (hitems v hv) rest) rest
  | pair a b iha ihb =>
    obtain ⟨x, y⟩ := v
    simp only [Shape.isPlain, Bool.and_eq_true] at hs
    have hhead : ∀ rest, head? (arrayHead 2 ++ rest) = some (.array 2, rest) :=
      head?_arrayHead (by decide)
    simp only [read, write, List.append_assoc, hhead, Nat.lt_irrefl, if_false, iha hs.1 x h.1,
      ihb hs.2 y h.2]

/-! ## Records -/

theorem readFields_writeFields {r : Record} (hr : r.isPlain) (v : r.Val)
    (h : r.Fits lengthLimit v) (rest : Bytes) :
    readFields r (writeFields r v ++ rest) = some (v, rest) := by
  induction r with
  | nil => rfl
  | cons f fs ih =>
    obtain ⟨v, vs⟩ := v
    rw [Record.isPlain_cons] at hr
    simp only [readFields, writeFields, List.append_assoc, read_write hr.1 v h.1, ih hr.2 vs h.2]

/-- A record is read back from its bytes, whatever follows. -/
theorem readRecord_writeRecord {r : Record} (hr : r.isPlain) (hcount : r.length < lengthLimit)
    (v : r.Val) (h : r.Fits lengthLimit v) (rest : Bytes) :
    readRecord r (writeRecord r v ++ rest) = some (v, rest) := by
  simp only [readRecord, writeRecord, List.append_assoc, head?_arrayHead hcount, Nat.lt_irrefl,
    if_false, readFields_writeFields hr v h]

/-! ## Lengths -/

theorem writeNat_length_pos (n : Nat) : 0 < (writeNat n).length := by
  unfold writeNat
  repeat' split
  all_goals exact Nat.succ_pos _

theorem writeInt_length_pos (n : Int) : 0 < (writeInt n).length := by
  unfold writeInt
  split
  · exact writeNat_length_pos n.toNat
  · repeat' split
    all_goals exact Nat.succ_pos _

theorem textHead_length_pos (n : Nat) : 0 < (textHead n).length := by
  simp only [textHead]
  repeat' split
  all_goals exact Nat.succ_pos _

theorem bytesHead_length_pos (n : Nat) : 0 < (bytesHead n).length := by
  simp only [bytesHead]
  repeat' split
  all_goals exact Nat.succ_pos _

theorem arrayHead_length_pos (n : Nat) : 0 < (arrayHead n).length := by
  simp only [arrayHead]
  repeat' split
  all_goals exact Nat.succ_pos _

/-- Every value takes some room. -/
theorem write_length_pos {s : Shape} (v : s.Val) : 0 < (write s v).length := by
  induction s with
  | unit => exact Nat.one_pos
  | bool => exact Nat.one_pos
  | uint w => exact writeNat_length_pos _
  | int w => exact writeInt_length_pos _
  | text =>
    simp only [write, List.length_append]
    exact Nat.add_pos_left (textHead_length_pos _) _
  | bytes =>
    simp only [write, List.length_append]
    exact Nat.add_pos_left (bytesHead_length_pos _) _
  | code codes => exact writeNat_length_pos _
  | option s ih =>
    cases v with
    | none => exact Nat.one_pos
    | some v => exact ih v
  | list s ih =>
    simp only [write, List.length_append]
    exact Nat.add_pos_left (arrayHead_length_pos _) _
  | pair a b iha ihb =>
    simp only [write, List.length_append, Nat.add_assoc]
    exact Nat.add_pos_left (arrayHead_length_pos _) _

/-- All lengths in a value are below a limit that its bytes stay below. -/
theorem fits_of_length {limit : Nat} {s : Shape} (v : s.Val) (h : (write s v).length < limit) :
    s.Fits limit v := by
  induction s with
  | unit => trivial
  | bool => trivial
  | uint w => trivial
  | int w => trivial
  | text =>
    simp only [write, List.length_append] at h
    exact Nat.lt_of_le_of_lt (Nat.le_add_left _ _) h
  | bytes =>
    simp only [write, List.length_append] at h
    exact Nat.lt_of_le_of_lt (Nat.le_add_left _ _) h
  | code codes => trivial
  | option s ih =>
    cases v with
    | none => trivial
    | some v => exact ih v h
  | list s ih =>
    simp only [write, List.length_append] at h
    -- each item takes a byte at least, so there are no more items than bytes
    have hcount := count_le_flatMap v fun x _ => write_length_pos (s := s) x
    refine ⟨by omega, ?_⟩
    intro x hx
    have hle := length_le_flatMap (write s) hx
    exact ih x (by omega)
  | pair a b iha ihb =>
    obtain ⟨x, y⟩ := v
    simp only [write, List.length_append] at h
    exact ⟨iha x (by omega), ihb y (by omega)⟩

theorem fits_of_writeFields {limit : Nat} {r : Record} (v : r.Val)
    (h : (writeFields r v).length < limit) : r.Fits limit v := by
  induction r with
  | nil => trivial
  | cons f fs ih =>
    obtain ⟨v, vs⟩ := v
    simp only [writeFields, List.length_append] at h
    exact ⟨fits_of_length v (by omega), ih vs (by omega)⟩

/-- All lengths in a record are below a limit that its bytes stay below. -/
theorem fitsRecord_of_length (limit : Nat) {r : Record} (v : r.Val)
    (h : (writeRecord r v).length < limit) : r.Fits limit v := by
  rw [writeRecord, List.length_append] at h
  exact fits_of_writeFields v (by omega)

end MessagePack

end Wire

end Parley
