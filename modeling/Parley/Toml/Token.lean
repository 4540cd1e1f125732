import Parley.Bytes

/-!
# Words and marks of TOML

Cuts the text of a document into tokens. A line ends with a line feed, or with a carriage return
and a line feed; a carriage return alone is no character of a document.

- `Token.ofText?` gives the tokens of a text, if all of it is tokens.
-/

namespace Parley

namespace Toml

/-- Tokens. -/
inductive Token
  | newline
  /-- Blanks and tabulators; a single blank may stand inside a point in time. -/
  | blank (single : Bool)
  | comment
  | equals | period | comma | colon | plus
  | openBrace | closeBrace | openBracket | closeBracket
  /-- Letters, digits, dashes and underscores: a bare key, a number or a truth value. -/
  | word (letters : List Char)
  /-- A text in quotes, which are threefold for a text of many lines. -/
  | text (content : String) (manyLines : Bool)
deriving DecidableEq, Repr

/-- One character for the end of a line. -/
def foldLines : List Char → List Char
  | '\r' :: '\n' :: rest => '\n' :: foldLines rest
  | c :: rest => c :: foldLines rest
  | [] => []

def isWordChar (c : Char) : Bool :=
  ('A' ≤ c && c ≤ 'Z') || ('a' ≤ c && c ≤ 'z') || ('0' ≤ c && c ≤ '9') || c == '-' || c == '_'

def isBlank (c : Char) : Bool :=
  c == ' ' || c == '\t'

def isPlain (c : Char) : Bool :=
  c == '\t' || ' ' ≤ c

/-- The value of a digit in a radix up to sixteen. -/
def digit? (radix : Nat) (c : Char) : Option Nat :=
  let value :=
    if '0' ≤ c && c ≤ '9' then c.toNat - 48
    else if 'a' ≤ c && c ≤ 'f' then c.toNat - 87
    else if 'A' ≤ c && c ≤ 'F' then c.toNat - 55
    else radix
  if value < radix then some value else none

/-- The character whose number these hexadecimal digits spell. -/
def charOfHex? (digits : List Char) : Option Char := do
  let values ← digits.mapM (digit? 16)
  let n := values.foldl (fun acc d => acc * 16 + d) 0
  if n < 0xD800 || (0xDFFF < n && n < 0x110000) then some (Char.ofNat n) else none

def shortEscape? : Char → Option Char
  | '"' => some '"'
  | '\\' => some '\\'
  | 'b' => some '\x08'
  | 'f' => some '\x0c'
  | 'n' => some '\n'
  | 'r' => some '\r'
  | 't' => some '\t'
  | _ => none

/-- What a text reader passes over behind a backslash at the end of a line. -/
inductive Gap
  | none
  /-- Blanks up to the end of the line. -/
  | toLineEnd
  /-- Blanks and lines up to the next other character. -/
  | toText
deriving DecidableEq, Repr

def push (c : Char) : Option (List Char × List Char) → Option (List Char × List Char)
  | some (content, rest) => some (c :: content, rest)
  | none => none

/-- Reads a text up to its closing quotes `mark`. Up to two more quotes may stand right before the
closing ones of a text of many lines. -/
def readQuoted (mark : Char) (manyLines : Bool) (gap : Gap) :
    List Char → Option (List Char × List Char)
  | [] => none
  | c :: rest =>
    if gap = .toLineEnd then
      if isBlank c then readQuoted mark manyLines .toLineEnd rest
      else if c = '\n' then readQuoted mark manyLines .toText rest
      else none
    else if gap = .toText && (isBlank c || c == '\n') then
      readQuoted mark manyLines .toText rest
    else if c = mark then
      if !manyLines then some ([], rest)
      else match rest with
        | c₂ :: c₃ :: more =>
          if c₂ = mark && c₃ = mark then
            -- of up to five quotes in a row the last three close the text
            match more with
            | c₄ :: c₅ :: after =>
              if c₄ = mark && c₅ = mark then some ([mark, mark], after)
              else if c₄ = mark then some ([mark], c₅ :: after)
              else some ([], more)
            | [c₄] => if c₄ = mark then some ([mark], []) else some ([], more)
            | [] => some ([], [])
          else push mark (readQuoted mark manyLines .none rest)
        | _ => none
    else if c = '\n' then
      if manyLines then push '\n' (readQuoted mark manyLines .none rest) else none
    -- there are no escapes between single quotes
    else if c = '\\' && mark == '"' then
      match rest with
      | 'u' :: d₁ :: d₂ :: d₃ :: d₄ :: rest =>
        match charOfHex? [d₁, d₂, d₃, d₄] with
        | some c => push c (readQuoted mark manyLines .none rest)
        | none => none
      | 'U' :: d₁ :: d₂ :: d₃ :: d₄ :: d₅ :: d₆ :: d₇ :: d₈ :: rest =>
        match charOfHex? [d₁, d₂, d₃, d₄, d₅, d₆, d₇, d₈] with
        | some c => push c (readQuoted mark manyLines .none rest)
        | none => none
      | e :: rest =>
        match shortEscape? e with
        | some c => push c (readQuoted mark manyLines .none rest)
        | none =>
          if manyLines && isBlank e then readQuoted mark manyLines .toLineEnd rest
          else if manyLines && e == '\n' then readQuoted mark manyLines .toText rest
          else none
      | [] => none
    else if isPlain c && c != '\x7f' then push c (readQuoted mark manyLines .none rest)
    else none

/-- Reads a text from behind its first quote. A line end right behind threefold quotes is not part
of it. -/
def readText (mark : Char) (cs : List Char) : Option (Token × List Char) :=
  let token (manyLines : Bool) (read : Option (List Char × List Char)) :=
    read.map fun (content, rest) => (Token.text (String.ofList content) manyLines, rest)
  match cs with
  | c₁ :: c₂ :: rest =>
    if c₁ = mark && c₂ = mark then
      token true (readQuoted mark true .none (if rest.head? = some '\n' then rest.tail else rest))
    else token false (readQuoted mark false .none cs)
  | _ => token false (readQuoted mark false .none cs)

def markOf? : Char → Option Token
  | '\n' => some .newline
  | '=' => some .equals
  | '.' => some .period
  | ',' => some .comma
  | ':' => some .colon
  | '+' => some .plus
  | '\x7b' => some .openBrace
  | '\x7d' => some .closeBrace
  | '[' => some .openBracket
  | ']' => some .closeBracket
  | _ => none

def readToken (c : Char) (rest : List Char) : Option (Token × List Char) :=
  match markOf? c with
  | some t => some (t, rest)
  | none =>
    if isBlank c then
      some (.blank (c == ' ' && (rest.takeWhile isBlank).isEmpty), rest.dropWhile isBlank)
    else if c = '#' then some (.comment, rest.dropWhile isPlain)
    else if c = '"' || c = '\'' then readText c rest
    else if isWordChar c then
      some (.word (c :: rest.takeWhile isWordChar), rest.dropWhile isWordChar)
    else none

/-- Reads up to `fuel` tokens that fill the text. -/
def readTokens : Nat → List Char → Option (List Token)
  | _, [] => some []
  | 0, _ => none
  | fuel + 1, c :: rest =>
    match readToken c rest with
    | none => none
    | some (t, rest) => (readTokens fuel rest).map (t :: ·)

/-- The tokens of a text, without the byte order mark that may stand in front of it. A token has at
least one character. -/
def Token.ofText? (text : String) : Option (List Token) :=
  let cs := foldLines text.toList
  let cs := if cs.head? = some '\ufeff' then cs.tail else cs
  readTokens cs.length cs

end Toml

end Parley
