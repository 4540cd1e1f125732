/-!
# Bytes and fixed-width words

Everything on the wire is a list of bytes. This module adds the one layout that all the binary
formats share: a word of a given width, least significant byte first.

- `Bytes.toNatLE_ofNatLE`: a word that fits its width is read back as written.
- `Bytes.length_ofNatLE`: a word takes exactly its width.
- `Bytes.isShorter_iff`: a comparison with a length that need not walk all bytes.
- `Bytes.split?_append`: splitting off as many bytes as were written in front gives them back.
-/

namespace Parley

/-- A byte string. -/
abbrev Bytes := List UInt8

namespace Bytes

/-- The number of words of a width. -/
def wordCount : Nat → Nat
  | 0 => 1
  | width + 1 => 256 * wordCount width

/-- The low `width` bytes of `n`, least significant first. -/
def ofNatLE : Nat → Nat → Bytes
  | 0, _ => []
  | width + 1, n => UInt8.ofNat n :: ofNatLE width (n / 256)

/-- The number whose bytes, least significant first, are given. -/
def toNatLE : Bytes → Nat
  | [] => 0
  | b :: rest => b.toNat + 256 * toNatLE rest

/-- Whether there are fewer than `n` bytes. Looks at no more than `n` of them. -/
def isShorter : Nat → Bytes → Bool
  | 0, _ => false
  | _ + 1, [] => true
  | n + 1, _ :: rest => isShorter n rest

/-- The first `n` bytes and the rest, if there are that many. -/
def split? (n : Nat) (bs : Bytes) : Option (Bytes × Bytes) :=
  if isShorter n bs then none else some (bs.take n, bs.drop n)

/-- Reads a word of `width` bytes and returns it with the rest. -/
def takeLE? (width : Nat) (bs : Bytes) : Option (Nat × Bytes) :=
  (split? width bs).map fun (word, rest) => (toNatLE word, rest)

@[simp] theorem length_ofNatLE (width n : Nat) : (ofNatLE width n).length = width := by
  induction width generalizing n with
  | zero => rfl
  | succ width ih => simp [ofNatLE, ih]

theorem toNatLE_ofNatLE (width n : Nat) : toNatLE (ofNatLE width n) = n % wordCount width := by
  induction width generalizing n with
  | zero => exact (Nat.mod_one n).symm
  | succ width ih =>
    have low : (UInt8.ofNat n).toNat = n % 256 := UInt8.toNat_ofNat'
    rw [ofNatLE, toNatLE, ih, low, wordCount, Nat.mod_mul]

theorem isShorter_iff {n : Nat} {bs : Bytes} : isShorter n bs = true ↔ bs.length < n := by
  fun_induction isShorter n bs with
  | case1 => simp
  | case2 => simp
  | case3 n b rest ih => simp [ih]

theorem split?_append (xs rest : Bytes) : split? xs.length (xs ++ rest) = some (xs, rest) := by
  have h : ¬ isShorter xs.length (xs ++ rest) = true := by simp [isShorter_iff]
  simp [split?, h]

theorem takeLE?_ofNatLE_append (width n : Nat) (rest : Bytes) :
    takeLE? width (ofNatLE width n ++ rest) = some (n % wordCount width, rest) := by
  have h := split?_append (ofNatLE width n) rest
  rw [length_ofNatLE] at h
  simp [takeLE?, h, toNatLE_ofNatLE]

end Bytes

end Parley
