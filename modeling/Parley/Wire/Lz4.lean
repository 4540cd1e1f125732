import Parley.Wire.Lz4.Search

/-!
# LZ4 blocks

- `Lz4.decode?` unpacks a block to at most a given size. Like every decoder of this format it
  insists that a block ends in literals and that no copy comes close to its end, and like the quick
  ones it does not look at that where both ends are far away.
- `Lz4.encode` packs bytes. It keeps what its search finds only if that unpacks to the same bytes,
  so a packed block is right whatever the search does (`Lz4.encode_eq_or`).
-/

namespace Parley

namespace Lz4

/-- Adds the bytes that prolong a length: all up to the first one below 255. -/
def prolong (n : Nat) : Bytes → Option (Nat × Bytes)
  | [] => none
  | b :: rest => if b = 255 then prolong (n + 255) rest else some (n + b.toNat, rest)

/-- A length whose first part is four bits of a token. At least `margin` bytes follow the ones that
prolong it. -/
def readLength (margin nibble : Nat) (bs : Bytes) : Option (Nat × Bytes) :=
  if nibble = 15 then
    (prolong 15 bs).bind fun (n, rest) => if rest.isShorter margin then none else some (n, rest)
  else some (nibble, bs)

/-- Appends `n` bytes, each the one `distance` before the end. At no distance there is nothing to
take them from, and they are zero. -/
def copyBack (distance : Nat) : Nat → Array UInt8 → Array UInt8
  | 0, out => out
  | n + 1, out => copyBack distance n (out.push (out.getD (out.size - distance) 0))

/-- Whether a sequence cannot come close to an end: fourteen literals and a distance leave something
of the block, and with a copy of eighteen bytes they fit the output. -/
def isFarFromEnds (size : Nat) (out : Array UInt8) (rest : Bytes) : Bool :=
  out.size + 32 ≤ size && !rest.isShorter 17

/-- Whether a copy needs no margin behind it: it is short, and what it takes was put out at least
eight bytes before. -/
def isPlain (nibble distance : Nat) : Bool :=
  nibble ≠ 15 && 8 ≤ distance

/-- Unpacks sequences behind what is already put out. -/
def sequences (size : Nat) : Nat → Bytes → Array UInt8 → Option (Array UInt8)
  | 0, _, _ => none
  | _, [], _ => none
  | fuel + 1, token :: rest, out => do
    let nibble := token.toNat / 16
    let copyNibble := token.toNat % 16
    let far := nibble ≠ 15 && isFarFromEnds size out rest
    let (length, rest) ← readLength 0 nibble rest
    -- too close to an end for a copy, so this has to be the last sequence
    if !far && (size < out.size + length + outputMargin || rest.isShorter (length + inputMargin)) then
      if rest.length = length ∧ out.size + length ≤ size then some (out ++ rest.toArray) else none
    else
      let out := out ++ (rest.take length).toArray
      let (distance, rest) ← Bytes.takeLE? 2 (rest.drop length)
      let (length, rest) ← readLength 4 copyNibble rest
      let margin := if far && isPlain copyNibble distance then 0 else lastLiterals
      if out.size < distance || size < out.size + length + minCopy + margin then none
      else sequences size fuel rest (copyBack distance (length + minCopy) out)

/-- Unpacks a block to at most `size` bytes. -/
def decode? (size : Nat) (block : Bytes) : Option Bytes :=
  if size = 0 then
    if block = [0] then some [] else none
  else (sequences size (block.length + 1) block #[]).map (·.toList)

def encode (bs : Bytes) : Bytes :=
  let data := bs.toArray
  let found := write data (search data)
  if decode? bs.length found == some bs then found else literals bs

/-- A packed block either unpacks to the bytes or consists of them as literals. -/
theorem encode_eq_or (bs : Bytes) :
    decode? bs.length (encode bs) = some bs ∨ encode bs = literals bs := by
  unfold encode
  dsimp only
  split
  · exact .inl (eq_of_beq ‹_›)
  · exact .inr rfl

end Lz4

end Parley
