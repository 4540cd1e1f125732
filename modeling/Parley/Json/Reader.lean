import Parley.Json.Tree

/-!
# Reading JSON

`Json.parse?` reads one value with blanks around it and nothing after it. Escapes that name half of
a surrogate pair are kept as the three bytes of that half; whoever wants a text finds there that
the bytes are no UTF-8. A text with a control character that is not escaped is read as such
(`Json.rawText`), except for the name of a member.
-/

namespace Parley

namespace Json

def skipBlank : Bytes → Bytes
  | [] => []
  | b :: rest => if b = 32 || b = 9 || b = 10 || b = 13 then skipBlank rest else b :: rest

def hexValue? (b : UInt8) : Option Nat :=
  if ascii '0' ≤ b && b ≤ ascii '9' then some (b.toNat - 48)
  else if ascii 'a' ≤ b && b ≤ ascii 'f' then some (b.toNat - 87)
  else if ascii 'A' ≤ b && b ≤ ascii 'F' then some (b.toNat - 55)
  else none

/-- What stands between quotes: bytes, and units of sixteen bits given by number. -/
inductive Piece
  | byte (b : UInt8)
  | unit (n : Nat)
deriving DecidableEq, Repr

def shortEscape? (b : UInt8) : Option Nat :=
  if b = ascii '"' || b = ascii '\\' || b = ascii '/' then some b.toNat
  else if b = ascii 'b' then some 8
  else if b = ascii 'f' then some 12
  else if b = ascii 'n' then some 10
  else if b = ascii 'r' then some 13
  else if b = ascii 't' then some 9
  else none

def unit? (a b c d : UInt8) : Option Nat := do
  let a ← hexValue? a
  let b ← hexValue? b
  let c ← hexValue? c
  let d ← hexValue? d
  pure (a * 4096 + b * 256 + c * 16 + d)

/-- Reads up to the closing quote. -/
def readPieces : Bytes → Option (List Piece × Bytes)
  | [] => none
  | b :: rest =>
    if b = ascii '"' then some ([], rest)
    else if b = ascii '\\' then
      match rest with
      | [] => none
      | e :: rest =>
        if e = ascii 'u' then
          match rest with
          | x₁ :: x₂ :: x₃ :: x₄ :: rest =>
            match unit? x₁ x₂ x₃ x₄, readPieces rest with
            | some n, some (pieces, rest) => some (.unit n :: pieces, rest)
            | _, _ => none
          | _ => none
        else
          match shortEscape? e, readPieces rest with
          | some n, some (pieces, rest) => some (.unit n :: pieces, rest)
          | _, _ => none
    else
      match readPieces rest with
      | some (pieces, rest) => some (.byte b :: pieces, rest)
      | none => none

/-- The first half of a surrogate pair. -/
def isHigh (n : Nat) : Bool :=
  0xD800 ≤ n && n < 0xDC00

/-- The second half of a surrogate pair. -/
def isLow (n : Nat) : Bool :=
  0xDC00 ≤ n && n < 0xE000

/-- Joins the pieces to bytes; two halves in a row make one character. -/
def assemble : List Piece → Bytes
  | [] => []
  | .byte b :: rest => b :: assemble rest
  | [.unit n] => Utf8.encodeCode n
  | .unit n :: .byte b :: rest => Utf8.encodeCode n ++ b :: assemble rest
  | .unit n :: .unit m :: rest =>
    -- a half that stands alone is encoded as it is, and found to be no text later
    if isHigh n && isLow m then
      Utf8.encodeCode (0x10000 + (n - 0xD800) * 1024 + (m - 0xDC00)) ++ assemble rest
    else Utf8.encodeCode n ++ assemble (.unit m :: rest)

/-- Whether a piece is a control character that is not escaped. -/
def Piece.isControl : Piece → Bool
  | byte b => b < 32
  | unit _ => false

def textOf (pieces : List Piece) : Json :=
  if pieces.any Piece.isControl then rawText (assemble pieces) else text (assemble pieces)

def readText (bs : Bytes) : Option (Json × Bytes) :=
  (readPieces bs).map fun (pieces, rest) => (textOf pieces, rest)

def isDigit (b : UInt8) : Bool :=
  ascii '0' ≤ b && b ≤ ascii '9'

def spanDigits (bs : Bytes) : Bytes × Bytes :=
  (bs.takeWhile isDigit, bs.dropWhile isDigit)

/-- The number that digits spell. -/
def digitsValue (digits : Bytes) : Nat :=
  digits.foldl (fun acc b => acc * 10 + (b.toNat - 48)) 0

/-- The whole part of a number: a zero alone, or digits that do not start with one. -/
def readWhole (bs : Bytes) : Option (Nat × Bytes) :=
  match bs with
  | [] => none
  | b :: rest =>
    if b = ascii '0' then
      match rest with
      | c :: _ => if isDigit c then none else some (0, rest)
      | [] => some (0, rest)
    else if isDigit b then
      let (digits, rest) := spanDigits bs
      some (digitsValue digits, rest)
    else none

/-- Passes over a fraction, if one starts here, and tells whether it did. -/
def readFraction (bs : Bytes) : Option (Bool × Bytes) :=
  match bs with
  | b :: rest =>
    if b = ascii '.' then
      let (digits, rest) := spanDigits rest
      if digits.isEmpty then none else some (true, rest)
    else some (false, bs)
  | [] => some (false, bs)

/-- Passes over an exponent, if one starts here, and tells whether it did. -/
def readExponent (bs : Bytes) : Option (Bool × Bytes) :=
  match bs with
  | b :: rest =>
    if b = ascii 'e' || b = ascii 'E' then
      let rest := match rest with
        | s :: after => if s = ascii '+' || s = ascii '-' then after else rest
        | [] => rest
      let (digits, rest) := spanDigits rest
      if digits.isEmpty then none else some (true, rest)
    else some (false, bs)
  | [] => some (false, bs)

/-- Reads a number. -/
def readNumber (bs : Bytes) : Option (Json × Bytes) := do
  let negative := bs.head? == some (ascii '-')
  let (whole, rest) ← readWhole (if negative then bs.tail else bs)
  let (fraction, rest) ← readFraction rest
  let (exponent, rest) ← readExponent rest
  -- there is no integer for minus zero
  if fraction || exponent || (negative && whole == 0) then pure (real, rest)
  else if negative then pure (integer (-whole), rest)
  else pure (integer whole, rest)

def readWord (word : String) (v : Json) (bs : Bytes) : Option (Json × Bytes) :=
  let letters := word.toList.map ascii
  if bs.take letters.length = letters then some (v, bs.drop letters.length) else none

mutual

def readValue : Nat → Bytes → Option (Json × Bytes)
  | 0, _ => none
  | fuel + 1, bs =>
    match skipBlank bs with
    | [] => none
    | b :: rest =>
      if b = ascii '"' then readText rest
      else if b = ascii '[' then
        match skipBlank rest with
        | [] => none
        | c :: after =>
          if c = ascii ']' then some (array [], after)
          else (readItems fuel rest).map fun (items, rest) => (array items, rest)
      else if b = ascii '\x7b' then
        match skipBlank rest with
        | [] => none
        | c :: after =>
          if c = ascii '\x7d' then some (object [], after)
          else (readMembers fuel rest).map fun (members, rest) => (object members, rest)
      else if b = ascii 'n' then readWord "null" null (b :: rest)
      else if b = ascii 't' then readWord "true" (bool true) (b :: rest)
      else if b = ascii 'f' then readWord "false" (bool false) (b :: rest)
      else readNumber (b :: rest)

/-- Reads at least one item and the closing bracket. -/
def readItems : Nat → Bytes → Option (List Json × Bytes)
  | 0, _ => none
  | fuel + 1, bs =>
    match readValue fuel bs with
    | none => none
    | some (v, rest) =>
      match skipBlank rest with
      | [] => none
      | c :: rest =>
        if c = ascii ',' then (readItems fuel rest).map fun (vs, rest) => (v :: vs, rest)
        else if c = ascii ']' then some ([v], rest)
        else none

/-- Reads at least one member and the closing brace. -/
def readMembers : Nat → Bytes → Option (List (Bytes × Json) × Bytes)
  | 0, _ => none
  | fuel + 1, bs =>
    match skipBlank bs with
    | [] => none
    | q :: rest =>
      if q = ascii '"' then
        match readText rest with
        | some (text key, rest) =>
          match skipBlank rest with
          | [] => none
          | c :: rest =>
            if c = ascii ':' then
              match readValue fuel rest with
              | none => none
              | some (v, rest) =>
                match skipBlank rest with
                | [] => none
                | c :: rest =>
                  if c = ascii ',' then
                    (readMembers fuel rest).map fun (ms, rest) => ((key, v) :: ms, rest)
                  else if c = ascii '\x7d' then some ([(key, v)], rest)
                  else none
            else none
        | _ => none
      else none

end

/-- Reads one value that fills the input. A value takes at least one byte for every two rounds, so
the rounds never run out. -/
def parse? (bs : Bytes) : Option Json :=
  match readValue (2 * bs.length + 2) bs with
  | some (v, rest) => if skipBlank rest = [] then some v else none
  | none => none

end Json

end Parley
