import Parley.Bytes

/-!
# The sequences of an LZ4 block

A block is a row of sequences. Each sequence has literal bytes and then a copy: a stretch of what
has been put out before, which may overlap with what it puts out. The last one has literals only.
The lengths of both stand in the two halves of a token, and in bytes that prolong them where half a
token is too small.

- `Lz4.Sequence` says which of the bytes to pack are literals and which a copy.
- `Lz4.write` is the block of given sequences, with what stands behind them as literals.
-/

namespace Parley

namespace Lz4

def minCopy : Nat := 4

def maxDistance : Nat := 65535

/-- A copy leaves at least this many bytes of the output to literals. -/
def lastLiterals : Nat := 5

/-- The literals in front of a copy end at least this far from the end of the output. -/
def outputMargin : Nat := 12

/-- The literals in front of a copy end at least this far from the end of the block. -/
def inputMargin : Nat := 8

/-- The bytes from `start` up to `place` as literals, and `length` bytes from there on as a copy of
what stands `distance` in front of them. -/
structure Sequence where
  start : Nat
  place : Nat
  distance : Nat
  length : Nat
deriving DecidableEq, Repr

/-- The place behind a sequence. -/
def Sequence.stop (q : Sequence) : Nat :=
  q.place + q.length

/-- The bytes that prolong a length by `n`. -/
def prolongation (n : Nat) : Bytes :=
  List.replicate (n / 255) 255 ++ [UInt8.ofNat (n % 255)]

/-- The four bits of a length in a token, and the bytes that prolong it. -/
def splitLength (n : Nat) : Nat × Bytes :=
  if n < 15 then (n, []) else (15, prolongation (n - 15))

/-- A block of literals only. -/
def literals (bs : Bytes) : Bytes :=
  let (nibble, more) := splitLength bs.length
  UInt8.ofNat (nibble * 16) :: more ++ bs

def Sequence.write (data : Array UInt8) (q : Sequence) : Bytes :=
  let (nibble, more) := splitLength (q.place - q.start)
  let (copyNibble, copyMore) := splitLength (q.length - minCopy)
  UInt8.ofNat (nibble * 16 + copyNibble) :: more ++ (data.extract q.start q.place).toList ++
    Bytes.ofNatLE 2 q.distance ++ copyMore

/-- The block of sequences that stand one behind the other. -/
def write (data : Array UInt8) (qs : List Sequence) : Bytes :=
  let stop := (qs.getLast?.map (·.stop)).getD 0
  qs.flatMap (·.write data) ++ literals (data.extract stop data.size).toList

end Lz4

end Parley
