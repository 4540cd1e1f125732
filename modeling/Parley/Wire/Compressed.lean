import Parley.Error
import Parley.Wire.Lz4

/-!
# Compressed payloads

An LZ4 block behind its unpacked size, a signed word of four bytes. The size is checked against a
limit before anything is unpacked, so no payload takes more room than the limit allows.
-/

namespace Parley

namespace Compressed

/-- Largest size of what is compressed. -/
def sizeLimit : Nat := 2113929216

def compress (bs : Bytes) : Bytes :=
  Bytes.ofNatLE 4 bs.length ++ Lz4.encode bs

/-- Compresses a payload, if it is not too long for the format. -/
def pack (payload : Bytes) : Except Error Bytes :=
  if sizeLimit < payload.length then .error (.host (.other "Compression input too long."))
  else .ok (compress payload)

/-- The number that a word of four bytes stands for in two's complement. -/
def signed32 (n : Nat) : Int :=
  if n < 2147483648 then n else n - 4294967296

/-- Decompresses a payload of at most `limit` bytes. -/
def decompress (limit : Nat) (bs : Bytes) : Except Error Bytes :=
  match Bytes.takeLE? 4 bs with
  | none => .error (.malformedFrame .noSize)
  | some (word, block) =>
    let size := signed32 word
    if size < 0 then .error (.malformedFrame (.negativeSize size))
    -- before any room is taken for the output
    else if limit < size.toNat then .error (.frameTooLarge size.toNat limit)
    else if sizeLimit < size.toNat then .error (.malformedFrame .hugeSize)
    else match Lz4.decode? size.toNat block with
      | some out => .ok out
      | none => .error (.malformedFrame .corrupt)

end Compressed

end Parley
