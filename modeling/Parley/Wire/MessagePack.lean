import Parley.Text.Utf8
import Parley.Wire.Shape

/-!
# The MessagePack layout

Each value starts with a marker byte that tells its kind and, for small values, the value itself.
Integers, lengths and counts are written in the fewest bytes that hold them, most significant byte
first.

- `MessagePack.write` and `MessagePack.read` for values; an integer is read in every form that holds
  it, a text also from a byte string, a byte string also from a text or an array of small integers.
- A record is written as an array of its fields. It is read from an array with at least as many
  items, or from a map with the names or places of its fields as keys, where unknown keys are passed
  over.
-/

namespace Parley

namespace Wire

namespace MessagePack

/-- The `width` low bytes of `n`, most significant first. -/
def wordBE (width n : Nat) : Bytes :=
  (Bytes.ofNatLE width n).reverse

def writeNat (n : Nat) : Bytes :=
  if n < 128 then [UInt8.ofNat n]
  else if n < 256 then 0xCC :: wordBE 1 n
  else if n < 65536 then 0xCD :: wordBE 2 n
  else if n < 4294967296 then 0xCE :: wordBE 4 n
  else 0xCF :: wordBE 8 n

def writeInt (n : Int) : Bytes :=
  if 0 ≤ n then writeNat n.toNat
  else if -32 ≤ n then [UInt8.ofNat (n + 256).toNat]
  else if -128 ≤ n then 0xD0 :: wordBE 1 (n + 256).toNat
  else if -32768 ≤ n then 0xD1 :: wordBE 2 (n + 65536).toNat
  else if -2147483648 ≤ n then 0xD2 :: wordBE 4 (n + 4294967296).toNat
  else 0xD3 :: wordBE 8 (n + 18446744073709551616).toNat

/-- What is written of a length or a count: it is cut down to four bytes first. -/
def lowWord (n : Nat) : Nat :=
  n % 4294967296

/-- The start of a text of `n` bytes. -/
def textHead (n : Nat) : Bytes :=
  let n := lowWord n
  if n < 32 then [UInt8.ofNat (0xA0 + n)]
  else if n < 256 then 0xD9 :: wordBE 1 n
  else if n < 65536 then 0xDA :: wordBE 2 n
  else 0xDB :: wordBE 4 n

/-- The start of a byte string of `n` bytes. -/
def bytesHead (n : Nat) : Bytes :=
  let n := lowWord n
  if n < 256 then 0xC4 :: wordBE 1 n
  else if n < 65536 then 0xC5 :: wordBE 2 n
  else 0xC6 :: wordBE 4 n

/-- The start of an array of `n` items. -/
def arrayHead (n : Nat) : Bytes :=
  let n := lowWord n
  if n < 16 then [UInt8.ofNat (0x90 + n)]
  else if n < 65536 then 0xDC :: wordBE 2 n
  else 0xDD :: wordBE 4 n

def write : (s : Shape) → s.Val → Bytes
  | .unit, _ => [0xC0]
  | .bool, b => [if b then 0xC3 else 0xC2]
  | .uint _, n => writeNat (Width.natOf n)
  | .int _, n => writeInt (Width.intOf n)
  | .text, text =>
    let bs := Utf8.encode text
    textHead bs.length ++ bs
  | .bytes, bs => bytesHead bs.length ++ bs
  | .code _, c => writeNat c.val.toNat
  | .option _, none => [0xC0]
  | .option s, some v => write s v
  | .list s, vs => arrayHead vs.length ++ vs.flatMap (write s)
  | .pair a b, (x, y) => arrayHead 2 ++ write a x ++ write b y

def writeFields : (r : Record) → r.Val → Bytes
  | [], _ => []
  | f :: fs, (v, vs) => write f.shape v ++ writeFields fs vs

/-- The bytes of a record: an array of its fields. -/
def writeRecord (r : Record) (v : r.Val) : Bytes :=
  arrayHead r.length ++ writeFields r v

/-- What a marker announces. The content of texts and byte strings, items and entries follow. -/
inductive Head
  | int (n : Int)
  | null
  | bool (b : Bool)
  | real
  | text (length : Nat)
  | bytes (length : Nat)
  /-- A byte for its type comes before the content. -/
  | extension (length : Nat)
  | array (count : Nat)
  | map (count : Nat)
deriving DecidableEq, Repr

/-- Reads a word of `width` bytes, most significant first. -/
def takeBE? (width : Nat) (bs : Bytes) : Option (Nat × Bytes) :=
  (Bytes.split? width bs).map fun (word, rest) => (Bytes.toNatLE word.reverse, rest)

/-- The integer of `width` bytes that the word `n` stands for in two's complement. -/
def signedOf (width n : Nat) : Int :=
  if 2 * n < Bytes.wordCount width then n else n - Bytes.wordCount width

/-- Reads a marker with the numbers that belong to it. -/
def head? : Bytes → Option (Head × Bytes)
  | [] => none
  | m :: rest =>
    let word (width : Nat) (head : Nat → Head) : Option (Head × Bytes) :=
      (takeBE? width rest).map fun (n, rest) => (head n, rest)
    if m < 0x80 then some (.int m.toNat, rest)
    else if m < 0x90 then some (.map (m.toNat - 0x80), rest)
    else if m < 0xA0 then some (.array (m.toNat - 0x90), rest)
    else if m < 0xC0 then some (.text (m.toNat - 0xA0), rest)
    else if m = 0xC0 then some (.null, rest)
    else if m = 0xC2 then some (.bool false, rest)
    else if m = 0xC3 then some (.bool true, rest)
    else if m = 0xC4 then word 1 .bytes
    else if m = 0xC5 then word 2 .bytes
    else if m = 0xC6 then word 4 .bytes
    else if m = 0xC7 then word 1 .extension
    else if m = 0xC8 then word 2 .extension
    else if m = 0xC9 then word 4 .extension
    else if m = 0xCA then word 4 fun _ => .real
    else if m = 0xCB then word 8 fun _ => .real
    else if m = 0xCC then word 1 fun n => .int n
    else if m = 0xCD then word 2 fun n => .int n
    else if m = 0xCE then word 4 fun n => .int n
    else if m = 0xCF then word 8 fun n => .int n
    else if m = 0xD0 then word 1 fun n => .int (signedOf 1 n)
    else if m = 0xD1 then word 2 fun n => .int (signedOf 2 n)
    else if m = 0xD2 then word 4 fun n => .int (signedOf 4 n)
    else if m = 0xD3 then word 8 fun n => .int (signedOf 8 n)
    else if 0xD4 ≤ m && m ≤ 0xD8 then some (.extension (Nat.pow 2 (m.toNat - 0xD4)), rest)
    else if m = 0xD9 then word 1 .text
    else if m = 0xDA then word 2 .text
    else if m = 0xDB then word 4 .text
    else if m = 0xDC then word 2 .array
    else if m = 0xDD then word 4 .array
    else if m = 0xDE then word 2 .map
    else if m = 0xDF then word 4 .map
    else if 0xE0 ≤ m then some (.int (signedOf 1 m.toNat), rest)
    else none

def readInt (bs : Bytes) : Option (Int × Bytes) :=
  match head? bs with
  | some (.int n, rest) => some (n, rest)
  | _ => none

/-- Reads `n` items one after another. -/
def readMany {α : Type} (item : Bytes → Option (α × Bytes)) : Nat → Bytes → Option (List α × Bytes)
  | 0, bs => some ([], bs)
  | n + 1, bs =>
    match item bs with
    | none => none
    | some (x, rest) =>
      match readMany item n rest with
      | none => none
      | some (xs, rest) => some (x :: xs, rest)

/-- Reads a word of the width in any integer form that holds it. -/
def readWord (w : Width) (bs : Bytes) : Option (w.Word × Bytes) :=
  match readInt bs with
  | none => none
  | some (n, rest) => (w.word? n).map (·, rest)

def read : (s : Shape) → Bytes → Option (s.Val × Bytes)
  | .unit, bs =>
    match head? bs with
    | some (.null, rest) => some ((), rest)
    | _ => none
  | .bool, bs =>
    match head? bs with
    | some (.bool b, rest) => some (b, rest)
    | _ => none
  | .uint w, bs => readWord w bs
  | .int w, bs =>
    match readInt bs with
    | none => none
    | some (n, rest) => (w.signed? n).map (·, rest)
  | .text, bs =>
    match head? bs with
    | some (.text n, rest) | some (.bytes n, rest) =>
      match Bytes.split? n rest with
      | none => none
      | some (blob, rest) => (Utf8.decode? blob).map (·, rest)
    | _ => none
  | .bytes, bs =>
    match head? bs with
    | some (.text n, rest) | some (.bytes n, rest) => Bytes.split? n rest
    -- a list of bytes may stand for the byte string
    | some (.array n, rest) => readMany (readWord .w8) n rest
    | _ => none
  | .code codes, bs =>
    match readWord .w8 bs with
    | none => none
    | some (c, rest) => (Shape.codeOf? codes c).map (·, rest)
  | .option s, bs =>
    match head? bs with
    | none => none
    | some (.null, rest) => some (none, rest)
    | some _ =>
      match read s bs with
      | none => none
      | some (v, rest) => some (some v, rest)
  | .list s, bs =>
    match head? bs with
    | some (.array n, rest) => readMany (read s) n rest
    | _ => none
  | .pair a b, bs =>
    match head? bs with
    | some (.array n, rest) =>
      if n < 2 then none
      else match read a rest with
        | none => none
        | some (x, rest) =>
          match read b rest with
          | none => none
          | some (y, rest) => some ((x, y), rest)
    | _ => none

def readFields : (r : Record) → Bytes → Option (r.Val × Bytes)
  | [], bs => some ((), bs)
  | f :: fs, bs =>
    match read f.shape bs with
    | none => none
    | some (v, rest) =>
      match readFields fs rest with
      | none => none
      | some (vs, rest) => some ((v, vs), rest)

/-- Containers and extensions are passed over to a depth below this; the map of the record is the
first of them. -/
def depthLimit : Nat := 1024

/-- Passes over values of any kind, nested ones included. The list tells how many values are to be
passed over on each level, the innermost first. A round takes at least one byte or ends a level that
took one at its start, so twice as many rounds as there are bytes, and one for each level at the
start, are enough. -/
def skip : (rounds : Nat) → List Nat → Bytes → Option Bytes
  | _, [], bs => some bs
  | 0, _ :: _, _ => none
  | rounds + 1, 0 :: levels, bs => skip rounds levels bs
  | rounds + 1, (count + 1) :: levels, bs =>
    let isDeep := depthLimit ≤ levels.length + 2
    let enter (n : Nat) (rest : Bytes) : Option Bytes :=
      if isDeep then none else skip rounds (n :: count :: levels) rest
    let pass (n : Nat) (rest : Bytes) : Option Bytes :=
      match Bytes.split? n rest with
      | none => none
      | some (_, rest) => skip rounds (count :: levels) rest
    match head? bs with
    | none => none
    | some (.text n, rest) | some (.bytes n, rest) => pass n rest
    | some (.extension n, rest) => if isDeep then none else pass (n + 1) rest
    | some (.array n, rest) => enter n rest
    | some (.map n, rest) => enter (2 * n) rest
    | some (_, rest) => skip rounds (count :: levels) rest

def skipOne (bs : Bytes) : Option Bytes :=
  skip (2 * bs.length + 1) [1] bs

/-- What a key of a map can be for a record: the name of a field or its place. -/
inductive Key
  | name (bytes : Bytes)
  | place (n : Nat)
deriving DecidableEq, Repr

/-- Whether a marker starts an integer without a sign. -/
def isUnsigned (m : UInt8) : Bool :=
  m < 0x80 || (0xCC ≤ m && m ≤ 0xCF)

/-- Reads a key: the bytes of a text or of a byte string, or an integer in a form without a sign. -/
def readKey (bs : Bytes) : Option (Key × Bytes) :=
  match head? bs with
  | some (.text n, rest) | some (.bytes n, rest) =>
    (Bytes.split? n rest).map fun (name, rest) => (.name name, rest)
  | some (.int n, rest) => if bs.head?.any isUnsigned then some (.place n.toNat, rest) else none
  | _ => none

/-- Reads `n` entries of a map: each key with the input from its value on. -/
def readEntries : Nat → Bytes → Option (List (Key × Bytes) × Bytes)
  | 0, bs => some ([], bs)
  | n + 1, bs =>
    match readKey bs with
    | none => none
    | some (key, value) =>
      match skipOne value with
      | none => none
      | some rest =>
        match readEntries n rest with
        | none => none
        | some (entries, rest) => some ((key, value) :: entries, rest)

/-- Takes the fields of a record from the entries of a map, the first of them standing at `place`. A
field that stands twice, or one that is left out and is no option, spoils the record. -/
def readNamed : (r : Record) → (place : Nat) → List (Key × Bytes) → Option r.Val
  | [], _, _ => some ()
  | f :: fs, place, entries =>
    let value : Option f.shape.Val :=
      match entries.filter fun e => e.1 == .name (Utf8.encode f.name) || e.1 == .place place with
      | [] => f.shape.absent?
      | [(_, value)] => (read f.shape value).map (·.1)
      | _ => none
    match value, readNamed fs (place + 1) entries with
    | some v, some vs => some (v, vs)
    | _, _ => none

def readRecord (r : Record) (bs : Bytes) : Option (r.Val × Bytes) :=
  match head? bs with
  -- items behind the fields are left in the input
  | some (.array n, rest) => if n < r.length then none else readFields r rest
  | some (.map n, rest) =>
    match readEntries n rest with
    | none => none
    | some (entries, rest) => (readNamed r 0 entries).map (·, rest)
  | _ => none

end MessagePack

end Wire

end Parley
