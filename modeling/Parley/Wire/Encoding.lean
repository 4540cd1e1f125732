import Parley.Error
import Parley.Wire.JsonText
import Parley.Wire.MessagePack

/-!
# Encodings

The three formats that values can be packed in, the names they go by, and packing and unpacking in
a format chosen when the program runs. A build may leave out the compression and the two formats
that need more than this library (`Features`).
-/

namespace Parley

/-- The optional parts that a build has. -/
structure Features where
  lz4 : Bool
  messagePack : Bool
  json : Bool
deriving DecidableEq, Repr

namespace Features

def full : Features := ⟨true, true, true⟩

/-- Nothing optional built in. -/
def minimal : Features := ⟨false, false, false⟩

def has (f : Features) : Feature → Bool
  | .lz4 => f.lz4
  | .messagePack => f.messagePack
  | .json => f.json

end Features

/-- Formats of packed values. -/
inductive Encoding
  /-- Fast and binary; both ends have to know the shape of a value. -/
  | bincode
  /-- Binary, and known to many languages. -/
  | messagePack
  /-- Text, known to nearly all languages. -/
  | json
deriving DecidableEq, Repr

namespace Encoding

/-- The encoding that is used where none is chosen. -/
def default : Encoding := bincode

instance : Inhabited Encoding := ⟨default⟩

/-- The name under which an encoding is shown. -/
def name : Encoding → String
  | bincode => "bincode"
  | messagePack => "msgpack"
  | json => "json"

def feature? : Encoding → Option Feature
  | bincode => none
  | messagePack => some .messagePack
  | json => some .json

def available (f : Features) (e : Encoding) : Bool :=
  match e.feature? with
  | none => true
  | some part => f.has part

/-- The lower-case form of a character, as far as it is a letter of some encoding's name. Outside
of ASCII only the Kelvin sign has one. -/
def lowerChar (c : Char) : Char :=
  if c = '\u212a' then 'k' else c.toLower

def ofName? : String → Option Encoding
  | "bincode" | "bin" => some bincode
  | "msgpack" | "messagepack" | "rmp" => some messagePack
  | "json" => some json
  | _ => none

/-- Reads the name of an encoding that is built in, in any case. -/
def parse (f : Features) (text : String) : Except Error Encoding :=
  match ofName? (String.ofList (text.toList.map lowerChar)) with
  | some e => if e.available f then .ok e else .error (.other (.unknownEncoding text))
  | none => .error (.other (.unknownEncoding text))

/-- Fails if the encoding is not built in. -/
def require (f : Features) (e : Encoding) : Except Error Unit :=
  match e.feature? with
  | none => .ok ()
  | some part =>
    if f.has part then .ok () else .error (.other (.encodingUnavailable part))

open Wire

def pack (f : Features) (e : Encoding) (s : Shape) (v : s.Val) : Except Error Bytes := do
  e.require f
  match e with
  | bincode => .ok (Bincode.write s v)
  | messagePack => .ok (MessagePack.write s v)
  | json => .ok (JsonText.write s v)

def unpack (f : Features) (e : Encoding) (s : Shape) (bs : Bytes) : Except Error s.Val := do
  e.require f
  match e with
  | bincode =>
    match Bincode.read s bs with
    | .ok (v, _) => .ok v
    | .error fault => .error (.bincode fault)
  | messagePack =>
    match MessagePack.read s bs with
    | some (v, _) => .ok v
    | none => .error .messagePack
  | json =>
    match JsonText.read? s bs with
    | some v => .ok v
    | none => .error .json

def packRecord (f : Features) (e : Encoding) (r : Record) (v : r.Val) : Except Error Bytes := do
  e.require f
  match e with
  | bincode => .ok (Bincode.writeRecord r v)
  | messagePack => .ok (MessagePack.writeRecord r v)
  | json => .ok (JsonText.writeRecord r v)

def unpackRecord (f : Features) (e : Encoding) (r : Record) (bs : Bytes) :
    Except Error r.Val := do
  e.require f
  match e with
  | bincode =>
    match Bincode.readRecord r bs with
    | .ok (v, _) => .ok v
    | .error fault => .error (.bincode fault)
  | messagePack =>
    match MessagePack.readRecord r bs with
    | some (v, _) => .ok v
    | none => .error .messagePack
  | json =>
    match JsonText.readRecord? r bs with
    | some v => .ok v
    | none => .error .json

theorem require_full (e : Encoding) : e.require .full = .ok () := by
  cases e <;> rfl

end Encoding

end Parley
