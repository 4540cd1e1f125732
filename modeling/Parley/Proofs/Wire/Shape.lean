import Parley.Text.Utf8
import Parley.Wire.Shape

/-!
# Values that fit their formats

Every format reads back the values of a shape that it wrote, as long as lengths fit where the format
keeps them (`Shape.Fits`) and no two values look the same in it (`Shape.isPlain`). Words of all
widths are their numbers, one to one.
-/

namespace Parley

namespace Wire

namespace Width

theorem count_pos (w : Width) : 0 < w.count := by
  cases w <;> decide

theorem natOf_lt {w : Width} (n : w.Word) : natOf n < w.count := by
  cases w with
  | w8 => exact UInt8.toNat_lt n
  | w16 => exact UInt16.toNat_lt n
  | w32 => exact UInt32.toNat_lt n
  | w64 => exact UInt64.toNat_lt n

@[simp] theorem toWord_natOf {w : Width} (n : w.Word) : w.toWord (natOf n) = n := by
  cases w with
  | w8 => exact UInt8.ofNat_toNat
  | w16 => exact UInt16.ofNat_toNat
  | w32 => exact UInt32.ofNat_toNat
  | w64 => exact UInt64.ofNat_toNat

@[simp] theorem word?_natOf {w : Width} (n : w.Word) : w.word? (natOf n) = some n := by
  have hlt : (natOf n : Int) < w.count := Int.ofNat_lt.mpr (natOf_lt n)
  rw [word?, if_pos ⟨Int.natCast_nonneg _, hlt⟩, Int.toNat_natCast, toWord_natOf]

/-- Half of the numbers of a width are below zero. -/
theorem intOf_bounds {w : Width} (n : w.Signed) :
    -(w.count : Int) ≤ 2 * intOf n ∧ 2 * intOf n < w.count := by
  cases w with
  | w8 =>
    have h := Int8.le_toInt n
    have h' := Int8.toInt_lt n
    show -256 ≤ 2 * n.toInt ∧ 2 * n.toInt < 256
    omega
  | w16 =>
    have h := Int16.le_toInt n
    have h' := Int16.toInt_lt n
    show -65536 ≤ 2 * n.toInt ∧ 2 * n.toInt < 65536
    omega
  | w32 =>
    have h := Int32.le_toInt n
    have h' := Int32.toInt_lt n
    show -4294967296 ≤ 2 * n.toInt ∧ 2 * n.toInt < 4294967296
    omega
  | w64 =>
    have h := Int64.le_toInt n
    have h' := Int64.toInt_lt n
    show -18446744073709551616 ≤ 2 * n.toInt ∧ 2 * n.toInt < 18446744073709551616
    omega

@[simp] theorem toSigned_intOf {w : Width} (n : w.Signed) : w.toSigned (intOf n) = n := by
  cases w with
  | w8 => exact Int8.ofInt_toInt n
  | w16 => exact Int16.ofInt_toInt n
  | w32 => exact Int32.ofInt_toInt n
  | w64 => exact Int64.ofInt_toInt n

@[simp] theorem signed?_intOf {w : Width} (n : w.Signed) : w.signed? (intOf n) = some n := by
  rw [signed?, if_pos (intOf_bounds n), toSigned_intOf]

/-- A signed word is the same modulo the number of words. -/
theorem toSigned_emod (w : Width) (n : Int) : w.toSigned (n % w.count) = w.toSigned n := by
  cases w with
  | w8 =>
    exact (Int8.ofInt_eq_iff_bmod_eq_toInt _ _).mpr
      ((Int.emod_bmod n (2 ^ 8)).trans Int8.toInt_ofInt.symm)
  | w16 =>
    exact (Int16.ofInt_eq_iff_bmod_eq_toInt _ _).mpr
      ((Int.emod_bmod n (2 ^ 16)).trans Int16.toInt_ofInt.symm)
  | w32 =>
    exact (Int32.ofInt_eq_iff_bmod_eq_toInt _ _).mpr
      ((Int.emod_bmod n (2 ^ 32)).trans Int32.toInt_ofInt.symm)
  | w64 =>
    exact (Int64.ofInt_eq_iff_bmod_eq_toInt _ _).mpr
      ((Int.emod_bmod n (2 ^ 64)).trans Int64.toInt_ofInt.symm)

end Width

namespace Shape

/-- All texts, byte strings and lists in a value are shorter than the limit. -/
def Fits (limit : Nat) : (s : Shape) → s.Val → Prop
  | .text, t => (Utf8.encode t).length < limit
  | .bytes, bs => bs.length < limit
  | .option s, some v => Fits limit s v
  | .list s, vs => vs.length < limit ∧ ∀ v ∈ vs, Fits limit s v
  | .pair a b, (x, y) => Fits limit a x ∧ Fits limit b y
  | _, _ => True

/-- Whether no value has to be told from nothing: an option is of a shape that always shows, and
every value takes some room. -/
def isPlain : Shape → Bool
  | .unit => false
  | .option (.option _) => false
  | .option s => s.isPlain
  | .list s => s.isPlain
  | .pair a b => a.isPlain && b.isPlain
  | _ => true

theorem isPlain_of_option {s : Shape} (h : (option s).isPlain) : s.isPlain := by
  cases s <;> first | exact h | cases h

end Shape

namespace Record

/-- All texts, byte strings and lists in a record are shorter than the limit. -/
def Fits (limit : Nat) : (r : Record) → r.Val → Prop
  | [], _ => True
  | f :: fs, (v, vs) => f.shape.Fits limit v ∧ Fits limit fs vs

/-- Whether no value of any field has to be told from nothing. -/
def isPlain (r : Record) : Bool :=
  r.all (·.shape.isPlain)

theorem isPlain_cons {f : Field} {fs : Record} :
    isPlain (f :: fs) = true ↔ f.shape.isPlain = true ∧ isPlain fs = true := by
  simp [isPlain]

end Record

/-! ## Items one after another -/

/-- What each item takes is part of what all take. -/
theorem length_le_flatMap {α : Type} (bytes : α → Bytes) {xs : List α} {x : α} (h : x ∈ xs) :
    (bytes x).length ≤ (xs.flatMap bytes).length := by
  obtain ⟨front, back, rfl⟩ := List.append_of_mem h
  simp only [List.flatMap_append, List.flatMap_cons, List.length_append]
  omega

/-- Items that take some room each are no more than the bytes of all. -/
theorem count_le_flatMap {α : Type} {bytes : α → Bytes} (xs : List α)
    (h : ∀ x ∈ xs, 0 < (bytes x).length) : xs.length ≤ (xs.flatMap bytes).length := by
  induction xs with
  | nil => exact Nat.le_refl 0
  | cons x xs ih =>
    have hx := h x List.mem_cons_self
    have hxs := ih fun y hy => h y (List.mem_cons_of_mem _ hy)
    simp only [List.flatMap_cons, List.length_append, List.length_cons]
    omega

end Wire

end Parley
