import Parley.Bytes

/-!
# Decimal numbers

Digits of a natural number, and the reader for whole words: an optional plus sign and at least one
digit, below a limit. The reader tells apart the three ways a word can fail to be such a number.
-/

namespace Parley

namespace Decimal

def digit? (c : Char) : Option Nat :=
  if '0' ≤ c ∧ c ≤ '9' then some (c.toNat - '0'.toNat) else none

/-- The number that a row of digits adds to `acc`, which stands for the digits before it. -/
def digits? (acc : Nat) : List Char → Option Nat
  | [] => some acc
  | c :: rest =>
    match digit? c with
    | some d => digits? (acc * 10 + d) rest
    | none => none

/-- Why a word is not a number. -/
inductive Fault
  /-- Nothing to read. -/
  | empty
  /-- A character that is no digit, or a sign alone. -/
  | invalidDigit
  /-- A number at or above the limit. -/
  | tooLarge
deriving DecidableEq, Repr

/-- The text of a fault, as it is shown to users. -/
def Fault.message : Fault → String
  | .empty => "cannot parse integer from empty string"
  | .invalidDigit => "invalid digit found in string"
  | .tooLarge => "number too large to fit in target type"

/-- Reads digits from left to right below `limit`. The first offence decides: a number that has
grown to the limit fails as too large before a later character is looked at. -/
def readBelow (limit acc : Nat) : List Char → Except Fault Nat
  | [] => .ok acc
  | c :: rest =>
    match digit? c with
    | none => .error .invalidDigit
    | some d =>
      if acc * 10 + d < limit then readBelow limit (acc * 10 + d) rest else .error .tooLarge

/-- Reads a whole word as a number below `limit`. -/
def parseBelow (limit : Nat) (word : String) : Except Fault Nat :=
  match word.toList with
  | [] => .error .empty
  | ['+'] => .error .invalidDigit
  | '+' :: rest => readBelow limit 0 rest
  | cs => readBelow limit 0 cs

/-- The digits of a number. -/
def toChars (n : Nat) : List Char :=
  Nat.toDigits 10 n

end Decimal

end Parley
