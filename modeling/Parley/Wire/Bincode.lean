import Parley.Text.Utf8
import Parley.Wire.Shape

/-!
# The bincode layout

Fixed-width little-endian integers, one byte for truth values, codes and option tags, and eight
bytes of length before texts, byte strings and lists. A record is its fields one after another.
What follows a value is left to the caller, so reading never looks past the value.

- `Bincode.write` and `Bincode.read` for values, `Bincode.writeRecord` and `Bincode.readRecord` for
  records.
- `Bincode.Fault` is what can be wrong with the bytes; the first fault from the left is reported.
-/

namespace Parley

namespace Wire

namespace Bincode

/-- Why bytes are not a value. -/
inductive Fault
  | unexpectedEnd
  /-- A text that is not UTF-8. -/
  | badText (fault : Utf8.Fault)
  | badBool (found : UInt8)
  | badTag (found : UInt8)
  /-- A code that is none of those allowed. -/
  | badCode (found : UInt8) (codes : List UInt8)
deriving DecidableEq, Repr

/-- The codes that would have been accepted, in their order. -/
def expectation : List UInt8 → String
  | [a] => s!"{a}"
  | [a, b] => s!"{a} or {b}"
  | codes => "one of: " ++ String.intercalate ", " (codes.map fun c => s!"{c}")

/-- The text of a fault, as it is shown to users. -/
def Fault.message : Fault → String
  | unexpectedEnd => "io error: unexpected end of file"
  | badText fault => "string is not valid utf8: " ++ fault.message
  | badBool found => s!"invalid u8 while decoding bool, expected 0 or 1, found {found}"
  | badTag found => s!"tag for enum is not valid, found {found}"
  | badCode found codes => s!"invalid value: {found}, expected " ++ expectation codes

def writeBlob (bs : Bytes) : Bytes :=
  Bytes.ofNatLE 8 bs.length ++ bs

def write : (s : Shape) → s.Val → Bytes
  | .unit, _ => []
  | .bool, b => [if b then 1 else 0]
  | .uint w, n => Bytes.ofNatLE w.size (Width.natOf n)
  | .int w, n => Bytes.ofNatLE w.size (Width.intOf n % w.count).toNat
  | .text, text => writeBlob (Utf8.encode text)
  | .bytes, bs => writeBlob bs
  | .code _, c => [c.val]
  | .option _, none => [0]
  | .option s, some v => 1 :: write s v
  | .list s, vs => Bytes.ofNatLE 8 vs.length ++ vs.flatMap (write s)
  | .pair a b, (x, y) => write a x ++ write b y

def writeRecord : (r : Record) → r.Val → Bytes
  | [], _ => []
  | f :: fs, (v, vs) => write f.shape v ++ writeRecord fs vs

def readNat (width : Nat) (bs : Bytes) : Except Fault (Nat × Bytes) :=
  match Bytes.takeLE? width bs with
  | some read => .ok read
  | none => .error .unexpectedEnd

def readBlob (bs : Bytes) : Except Fault (Bytes × Bytes) :=
  match readNat 8 bs with
  | .error e => .error e
  | .ok (n, rest) =>
    match Bytes.split? n rest with
    | some read => .ok read
    | none => .error .unexpectedEnd

/-- Reads `n` items one after another. -/
def readMany {α : Type} (item : Bytes → Except Fault (α × Bytes)) :
    Nat → Bytes → Except Fault (List α × Bytes)
  | 0, bs => .ok ([], bs)
  | n + 1, bs =>
    match item bs with
    | .error e => .error e
    | .ok (x, rest) =>
      match readMany item n rest with
      | .error e => .error e
      | .ok (xs, rest) => .ok (x :: xs, rest)

def readByte : Bytes → Except Fault (UInt8 × Bytes)
  | [] => .error .unexpectedEnd
  | b :: rest => .ok (b, rest)

def read : (s : Shape) → Bytes → Except Fault (s.Val × Bytes)
  | .unit, bs => .ok ((), bs)
  | .bool, bs => do
    let (b, rest) ← readByte bs
    if b = 0 then .ok (false, rest)
    else if b = 1 then .ok (true, rest)
    else .error (.badBool b)
  | .uint w, bs => do
    let (n, rest) ← readNat w.size bs
    .ok (w.toWord n, rest)
  | .int w, bs => do
    let (n, rest) ← readNat w.size bs
    .ok (w.toSigned n, rest)
  | .text, bs => do
    let (blob, rest) ← readBlob bs
    match Utf8.decode blob with
    | .ok text => .ok (text, rest)
    | .error fault => .error (.badText fault)
  | .bytes, bs => readBlob bs
  | .code codes, bs => do
    let (b, rest) ← readByte bs
    if h : b ∈ codes then .ok (⟨b, h⟩, rest) else .error (.badCode b codes)
  | .option s, bs => do
    let (b, rest) ← readByte bs
    if b = 0 then .ok (none, rest)
    else if b = 1 then do
      let (v, rest) ← read s rest
      .ok (some v, rest)
    else .error (.badTag b)
  | .list s, bs => do
    let (n, rest) ← readNat 8 bs
    readMany (read s) n rest
  | .pair a b, bs => do
    let (x, rest) ← read a bs
    let (y, rest) ← read b rest
    .ok ((x, y), rest)

def readRecord : (r : Record) → Bytes → Except Fault (r.Val × Bytes)
  | [], bs => .ok ((), bs)
  | f :: fs, bs => do
    let (v, rest) ← read f.shape bs
    let (vs, rest) ← readRecord fs rest
    .ok ((v, vs), rest)

end Bincode

end Wire

end Parley
