import Parley.Json.Reader
import Parley.Wire.Shape

/-!
# Values as JSON

Records are objects, lists, pairs and byte strings are arrays, an absent option is `null`.

- `JsonText.write` and `JsonText.read?` for values, `JsonText.writeRecord` and
  `JsonText.readRecord?` for records.
- A record is read from an object with its names in any order, or from an array of exactly its
  fields; a byte string also from a text.
-/

namespace Parley

namespace Wire

namespace JsonText

def ofVal : (s : Shape) → s.Val → Json
  | .unit, _ => .null
  | .bool, b => .bool b
  | .uint _, n => .integer (Width.natOf n)
  | .int _, n => .integer (Width.intOf n)
  | .text, text => .text (Utf8.encode text)
  | .bytes, bs => .array (bs.map fun b => .integer b.toNat)
  | .code _, c => .integer c.val.toNat
  | .option _, none => .null
  | .option s, some v => ofVal s v
  | .list s, vs => .array (vs.map (ofVal s))
  | .pair a b, (x, y) => .array [ofVal a x, ofVal b y]

def members : (r : Record) → r.Val → List (Bytes × Json)
  | [], _ => []
  | f :: fs, (v, vs) => (Utf8.encode f.name, ofVal f.shape v) :: members fs vs

def word? (w : Width) : Json → Option w.Word
  | .integer n => w.word? n
  | _ => none

def toVal? : (s : Shape) → Json → Option s.Val
  | .unit, .null => some ()
  | .bool, .bool b => some b
  | .uint w, v => word? w v
  | .int w, .integer n => w.signed? n
  | .text, .text content => Utf8.decode? content
  | .bytes, .text content | .bytes, .rawText content => some content
  | .bytes, .array items => items.mapM (word? .w8)
  | .code codes, v => (word? .w8 v).bind (Shape.codeOf? codes)
  | .option _, .null => some none
  | .option s, v => (toVal? s v).map some
  | .list s, .array items => items.mapM (toVal? s)
  | .pair a b, .array [x, y] =>
    match toVal? a x, toVal? b y with
    | some x, some y => some (x, y)
    | _, _ => none
  | _, _ => none

/-- The record whose fields are given in order. -/
def ofItems? : (r : Record) → List Json → Option r.Val
  | [], [] => some ()
  | f :: fs, v :: vs =>
    match toVal? f.shape v, ofItems? fs vs with
    | some v, some vs => some (v, vs)
    | _, _ => none
  | _, _ => none

/-- The record whose fields are given by name. A field that stands twice, or one that is left out
and is no option, spoils the record. -/
def ofMembers? : (r : Record) → List (Bytes × Json) → Option r.Val
  | [], _ => some ()
  | f :: fs, ms =>
    let value : Option f.shape.Val :=
      match ms.filter (·.1 == Utf8.encode f.name) with
      | [] => f.shape.absent?
      | [(_, v)] => toVal? f.shape v
      -- the field stands more than once
      | _ => none
    match value, ofMembers? fs ms with
    | some v, some vs => some (v, vs)
    | _, _ => none

/-- Whether a member may stand in the object of a record: its name has to be a text, and if it is
passed over its value has to be strict. -/
def isAdmissible (r : Record) (m : Bytes × Json) : Bool :=
  (Utf8.decode? m.1).isSome && (r.any (Utf8.encode ·.name == m.1) || m.2.isStrict)

def toRecord? (r : Record) : Json → Option r.Val
  | .array items => ofItems? r items
  | .object ms => if ms.all (isAdmissible r) then ofMembers? r ms else none
  | _ => none

def write (s : Shape) (v : s.Val) : Bytes :=
  (ofVal s v).render

def writeRecord (r : Record) (v : r.Val) : Bytes :=
  (Json.object (members r v)).render

def read? (s : Shape) (bs : Bytes) : Option s.Val :=
  (Json.parse? bs).bind (toVal? s)

def readRecord? (r : Record) (bs : Bytes) : Option r.Val :=
  (Json.parse? bs).bind (toRecord? r)

end JsonText

end Wire

end Parley
