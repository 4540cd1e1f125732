import Parley.Bytes

/-!
# Shapes of values

What can be packed: numbers of fixed width, truth values, texts, byte strings, codes out of a fixed
set, options, lists and pairs, and records of named fields. A shape decides the type of its values
(`Shape.Val`), so that each format is one writer and one reader over all shapes.
-/

namespace Parley

namespace Wire

/-- Widths of integers. -/
inductive Width
  | w8 | w16 | w32 | w64
deriving DecidableEq, Repr

namespace Width

def size : Width → Nat
  | w8 => 1 | w16 => 2 | w32 => 4 | w64 => 8

/-- Number of values. -/
def count (w : Width) : Nat :=
  Bytes.wordCount w.size

@[reducible] def Word : Width → Type
  | w8 => UInt8 | w16 => UInt16 | w32 => UInt32 | w64 => UInt64

@[reducible] def Signed : Width → Type
  | w8 => Int8 | w16 => Int16 | w32 => Int32 | w64 => Int64

/-- The number a word stands for. -/
def natOf : {w : Width} → w.Word → Nat
  | w8, n => UInt8.toNat n
  | w16, n => UInt16.toNat n
  | w32, n => UInt32.toNat n
  | w64, n => UInt64.toNat n

/-- The word that stands for a number, modulo the number of words. -/
def toWord : (w : Width) → Nat → w.Word
  | w8, n => UInt8.ofNat n
  | w16, n => UInt16.ofNat n
  | w32, n => UInt32.ofNat n
  | w64, n => UInt64.ofNat n

def intOf : {w : Width} → w.Signed → Int
  | w8, n => Int8.toInt n
  | w16, n => Int16.toInt n
  | w32, n => Int32.toInt n
  | w64, n => Int64.toInt n

/-- The signed word that stands for an integer, modulo the number of words. -/
def toSigned : (w : Width) → Int → w.Signed
  | w8, n => Int8.ofInt n
  | w16, n => Int16.ofInt n
  | w32, n => Int32.ofInt n
  | w64, n => Int64.ofInt n

/-- The word for an integer, if it is one. -/
def word? (w : Width) (n : Int) : Option w.Word :=
  if 0 ≤ n ∧ n < w.count then some (w.toWord n.toNat) else none

/-- The signed word for an integer, if it is one. -/
def signed? (w : Width) (n : Int) : Option w.Signed :=
  if -w.count ≤ 2 * n ∧ 2 * n < w.count then some (w.toSigned n) else none

end Width

/-- Shapes of single values. -/
inductive Shape
  /-- The one value without content. -/
  | unit
  | bool
  | uint (width : Width)
  | int (width : Width)
  | text
  /-- A byte string, which some formats write more tightly than a list of bytes. -/
  | bytes
  /-- A byte out of a fixed set, listed in the order of declaration. -/
  | code (codes : List UInt8)
  | option (inner : Shape)
  | list (item : Shape)
  | pair (first second : Shape)
deriving DecidableEq, Repr

namespace Shape

@[reducible] def Val : Shape → Type
  | unit => Unit
  | bool => Bool
  | uint w => w.Word
  | int w => w.Signed
  | text => String
  | bytes => Bytes
  | code codes => { c : UInt8 // c ∈ codes }
  | option s => Option s.Val
  | list s => List s.Val
  | pair a b => a.Val × b.Val

/-- The value that a record takes for a field that is left out. Only options have one. -/
def absent? : (s : Shape) → Option s.Val
  | option _ => some none
  | _ => none

def codeOf? (codes : List UInt8) (c : UInt8) : Option (code codes).Val :=
  if h : c ∈ codes then some ⟨c, h⟩ else none

theorem codeOf?_mem {codes : List UInt8} {c : UInt8} (h : c ∈ codes) :
    codeOf? codes c = some ⟨c, h⟩ :=
  dif_pos h

end Shape

/-- A field of a record. -/
structure Field where
  name : String
  shape : Shape
deriving DecidableEq, Repr

/-- A record: its fields in order. -/
abbrev Record := List Field

@[reducible] def Record.Val : Record → Type
  | [] => Unit
  | f :: fs => f.shape.Val × Record.Val fs

end Wire

end Parley
