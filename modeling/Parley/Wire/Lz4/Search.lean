import Parley.Wire.Lz4.Sequence

/-!
# The search for copies

One pass over the bytes with a table of places seen before. A place has a slot by the bytes that
stand there, and each slot keeps the last place put into it, so a slot is a guess that is checked
against the bytes themselves. The longer no copy turns up, the more places are passed over.

- `Lz4.search` gives the sequences whose copies it takes, one behind the other.
-/

namespace Parley

namespace Lz4

/-- The places seen before by the bytes that stand there. -/
structure Places where
  data : Array UInt8
  /-- Whether places can take more than sixteen bits. -/
  wide : Bool
  slots : Array Nat

namespace Places

/-- Sizes up to here leave every place that is looked up within sixteen bits. -/
def narrowLimit : Nat := 65546

/-- The table before anything is seen. Its slots name the first place. -/
def new (data : Array UInt8) : Places :=
  let wide := narrowLimit < data.size
  ⟨data, wide, Array.replicate (if wide then 4096 else 8192) 0⟩

/-- The five bytes from a place on as a word, least significant first. -/
def word (t : Places) (i : Nat) : UInt64 :=
  let byte (k : Nat) : UInt64 := (t.data.getD (i + k) 0).toUInt64
  byte 0 ||| byte 1 <<< 8 ||| byte 2 <<< 16 ||| byte 3 <<< 24 ||| byte 4 <<< 32

/-- The slot of a place: the top bits of a product with its first five bytes, or four if the table
is not wide. -/
def slot (t : Places) (i : Nat) : Nat :=
  if t.wide then (((t.word i <<< 24) * 889523592379) >>> 52).toNat
  else (((t.word i).toUInt32 * 2654435761) >>> 19).toNat

def put (t : Places) (i : Nat) : Places :=
  let k := t.slot i
  { t with slots := t.slots.setIfInBounds k i }

/-- Number of bytes that agree from two places on, at most `limit`, behind `n` that do. -/
def agreement (t : Places) (i j : Nat) (n : Nat) : (limit : Nat) → Nat
  | 0 => n
  | limit + 1 =>
    if t.data.getD (i + n) 0 = t.data.getD (j + n) 0 then agreement t i j (n + 1) limit else n

/-- Number of bytes that agree in front of two places, at most `limit`, in front of `n` that do. -/
def agreementBefore (t : Places) (i j : Nat) (n : Nat) : (limit : Nat) → Nat
  | 0 => n
  | limit + 1 =>
    if t.data.getD (i - n - 1) 0 = t.data.getD (j - n - 1) 0 then
      agreementBefore t i j (n + 1) limit
    else n

/-- The place in the slot of `i`, if a copy can start there. -/
def candidate? (t : Places) (i : Nat) : Option Nat :=
  let p := t.slots.getD (t.slot i) 0
  if i ≤ p + maxDistance ∧ t.agreement p i 0 minCopy = minCopy then some p else none

/-- The copy at `i` from the place `p`, prolonged both ways: forward up to the last literals, and
back as long as there are literals from `start` on. -/
def widest (t : Places) (start i p : Nat) : Sequence :=
  let back := t.agreementBefore i p 0 (min (i - start) p)
  let length := t.agreement p i 0 (t.data.size - lastLiterals - i)
  ⟨start, i - back, i - p, back + length⟩

end Places

/-- How far the search goes on after `tried` places without a copy. -/
def stride (tried : Nat) : Nat :=
  max 1 ((tried + 62) / 64)

/-- Searches from place `i` on, behind the sequences that were found. The last of them ends at
`start`, and `tried` places from there on had no copy. Each round goes on by a place at least. -/
def searchFrom : (rounds : Nat) → Places → (start i tried : Nat) → Array Sequence → Array Sequence
  | 0, _, _, _, _, found => found
  | rounds + 1, t, start, i, tried, found =>
    let next := i + stride tried
    if t.data.size < next + outputMargin - 1 then found
    else
      match t.candidate? i with
      | none => searchFrom rounds (t.put i) start next (tried + 1) found
      | some p =>
        let q := t.widest start i p
        searchFrom rounds ((t.put i).put (q.stop - 2)) q.stop q.stop 0 (found.push q)

/-- The sequences to pack `data` in. -/
def search (data : Array UInt8) : List Sequence :=
  (searchFrom data.size (.new data) 0 1 1 #[]).toList

end Lz4

end Parley
