import Parley.Bytes

/-!
# UTF-8

Characters as one to four bytes, and the reader that says where a byte string stops being text.

- `Utf8.encode` writes a text, `Utf8.decode` reads one.
- A failed reading names the length of the readable part and how many bytes make up the sequence
  that cannot be completed to a character, or that the input ends inside a sequence that could.
-/

namespace Parley

namespace Utf8

/-- The bytes of a code point given by its number. -/
def encodeCode (n : Nat) : Bytes :=
  if n < 0x80 then
    [UInt8.ofNat n]
  else if n < 0x800 then
    [UInt8.ofNat (0xC0 + n / 64), UInt8.ofNat (0x80 + n % 64)]
  else if n < 0x10000 then
    [UInt8.ofNat (0xE0 + n / 4096), UInt8.ofNat (0x80 + n / 64 % 64), UInt8.ofNat (0x80 + n % 64)]
  else
    [UInt8.ofNat (0xF0 + n / 262144), UInt8.ofNat (0x80 + n / 4096 % 64),
      UInt8.ofNat (0x80 + n / 64 % 64), UInt8.ofNat (0x80 + n % 64)]

def encodeChar (c : Char) : Bytes :=
  encodeCode c.toNat

def encode (text : String) : Bytes :=
  text.toList.flatMap encodeChar

/-- Why a byte string is not text. -/
structure Fault where
  /-- Length of the longest readable part at the front. -/
  index : Nat
  /-- Number of bytes that form the bad sequence; `none` if the input ends inside a good one. -/
  length : Option Nat
deriving DecidableEq, Repr

/-- The text of a fault, as it is shown to users. -/
def Fault.message : Fault → String
  | ⟨index, some length⟩ => s!"invalid utf-8 sequence of {length} bytes from index {index}"
  | ⟨index, none⟩ => s!"incomplete utf-8 byte sequence from index {index}"

def isContinuation (b : UInt8) : Bool :=
  0x80 ≤ b && b ≤ 0xBF

/-- What the first byte of a character promises. -/
inductive Lead
  /-- A character of its own. -/
  | single
  | double
  /-- Two follow, the first of them in the given range. -/
  | triple (low high : UInt8)
  /-- Three follow, the first of them in the given range. -/
  | quadruple (low high : UInt8)
  | bad
deriving DecidableEq, Repr

/-- Classifies a first byte. The ranges keep out overlong forms, surrogates and anything above
U+10FFFF. -/
def lead (b : UInt8) : Lead :=
  if b < 0x80 then .single
  else if b < 0xC2 then .bad
  else if b < 0xE0 then .double
  else if b = 0xE0 then .triple 0xA0 0xBF
  else if b = 0xED then .triple 0x80 0x9F
  else if b < 0xF0 then .triple 0x80 0xBF
  else if b = 0xF0 then .quadruple 0x90 0xBF
  else if b < 0xF4 then .quadruple 0x80 0xBF
  else if b = 0xF4 then .quadruple 0x80 0x8F
  else .bad

def low6 (b : UInt8) : Nat :=
  b.toNat - 0x80

/-- Reads the characters of `bs`, whose first byte stands at `index` of the whole input. -/
def decodeFrom (index : Nat) : Bytes → Except Fault (List Char)
  | [] => .ok []
  | b :: rest =>
    match lead b with
    | .bad => .error ⟨index, some 1⟩
    | .single => (Char.ofNat b.toNat :: ·) <$> decodeFrom (index + 1) rest
    | .double =>
      match rest with
      | [] => .error ⟨index, none⟩
      | b₁ :: rest =>
        if !isContinuation b₁ then .error ⟨index, some 1⟩
        else (Char.ofNat ((b.toNat - 0xC0) * 64 + low6 b₁) :: ·) <$> decodeFrom (index + 2) rest
    | .triple low high =>
      match rest with
      | [] => .error ⟨index, none⟩
      | b₁ :: rest =>
        if b₁ < low || high < b₁ then .error ⟨index, some 1⟩
        else match rest with
          | [] => .error ⟨index, none⟩
          | b₂ :: rest =>
            if !isContinuation b₂ then .error ⟨index, some 2⟩
            else
              (Char.ofNat ((b.toNat - 0xE0) * 4096 + low6 b₁ * 64 + low6 b₂) :: ·) <$>
                decodeFrom (index + 3) rest
    | .quadruple low high =>
      match rest with
      | [] => .error ⟨index, none⟩
      | b₁ :: rest =>
        if b₁ < low || high < b₁ then .error ⟨index, some 1⟩
        else match rest with
          | [] => .error ⟨index, none⟩
          | b₂ :: rest =>
            if !isContinuation b₂ then .error ⟨index, some 2⟩
            else match rest with
              | [] => .error ⟨index, none⟩
              | b₃ :: rest =>
                if !isContinuation b₃ then .error ⟨index, some 3⟩
                else
                  (Char.ofNat ((b.toNat - 0xF0) * 262144 + low6 b₁ * 4096 + low6 b₂ * 64 +
                    low6 b₃) :: ·) <$> decodeFrom (index + 4) rest

def decode (bs : Bytes) : Except Fault String :=
  String.ofList <$> decodeFrom 0 bs

/-- The text that the bytes spell, if they do. -/
def decode? (bs : Bytes) : Option String :=
  match decode bs with
  | .ok text => some text
  | .error _ => none

end Utf8

end Parley
