import Parley.Text.Decimal
import Parley.Text.Utf8

/-!
# JSON trees and their compact text

A JSON value as a tree. Of numbers only the integers keep their value: nothing here reads a number
with a fraction or an exponent. Texts are kept as bytes, because a text that nobody reads may hold
anything.

- `Json.render` writes a tree without blanks, with the shortest escapes.
-/

namespace Parley

/-- A JSON value. -/
inductive Json
  | null
  | bool (b : Bool)
  /-- A number written as digits with an optional minus sign, other than `-0`. -/
  | integer (n : Int)
  /-- Any other number. -/
  | real
  | text (content : Bytes)
  /-- A text in which a control character stands as it is. Only a byte string may be given so. -/
  | rawText (content : Bytes)
  | array (items : List Json)
  | object (members : List (Bytes × Json))

namespace Json

def ascii (c : Char) : UInt8 :=
  UInt8.ofNat c.toNat

/-- The lower-case hexadecimal digit of a value below sixteen. -/
def hexDigit (n : UInt8) : UInt8 :=
  if n < 10 then ascii '0' + n else ascii 'a' + (n - 10)

def escape (b : UInt8) : Bytes :=
  if b = ascii '"' then [ascii '\\', ascii '"']
  else if b = ascii '\\' then [ascii '\\', ascii '\\']
  else if b = 8 then [ascii '\\', ascii 'b']
  else if b = 9 then [ascii '\\', ascii 't']
  else if b = 10 then [ascii '\\', ascii 'n']
  else if b = 12 then [ascii '\\', ascii 'f']
  else if b = 13 then [ascii '\\', ascii 'r']
  else if b < 32 then
    [ascii '\\', ascii 'u', ascii '0', ascii '0', hexDigit (b / 16), hexDigit (b % 16)]
  else [b]

def renderText (content : Bytes) : Bytes :=
  ascii '"' :: content.flatMap escape ++ [ascii '"']

/-- The digits of a number. -/
def renderNat (n : Nat) : Bytes :=
  (Decimal.toChars n).map ascii

def renderInt (n : Int) : Bytes :=
  if 0 ≤ n then renderNat n.toNat else ascii '-' :: renderNat (-n).toNat

mutual

/-- The compact text of a tree. A number that kept no value is written as zero with a fraction. -/
def render : Json → Bytes
  | null => "null".toList.map ascii
  | bool true => "true".toList.map ascii
  | bool false => "false".toList.map ascii
  | integer n => renderInt n
  | real => "0.0".toList.map ascii
  | text content | rawText content => renderText content
  | array items => ascii '[' :: renderItems items ++ [ascii ']']
  | object members => ascii '\x7b' :: renderMembers members ++ [ascii '\x7d']

def renderItems : List Json → Bytes
  | [] => []
  | [v] => render v
  | v :: vs => render v ++ ascii ',' :: renderItems vs

def renderMembers : List (Bytes × Json) → Bytes
  | [] => []
  | [(key, v)] => renderText key ++ ascii ':' :: render v
  | (key, v) :: ms => renderText key ++ ascii ':' :: render v ++ ascii ',' :: renderMembers ms

end

mutual

/-- Whether no text of a tree holds a control character as it is. -/
def isStrict : Json → Bool
  | rawText _ => false
  | array items => areStrict items
  | object members => areStrictMembers members
  | null | bool _ | integer _ | real | text _ => true

def areStrict : List Json → Bool
  | [] => true
  | v :: vs => isStrict v && areStrict vs

def areStrictMembers : List (Bytes × Json) → Bool
  | [] => true
  | (_, v) :: ms => isStrict v && areStrictMembers ms

end

end Json

end Parley
