import Parley.Toml.Token

/-!
# Values of TOML

The values that stand behind an equals sign. Numbers with a fraction and points in time are known
to be there, but keep no value: nothing here reads one.

- `Value.read` reads a value from the front of a row of tokens.
- `addEntry` adds an entry to a table; dots in its key lead into tables made of dotted keys alone.
-/

namespace Parley

namespace Toml

/-- A value. -/
inductive Value
  | text (content : String)
  | integer (n : Int)
  | float
  | boolean (b : Bool)
  /-- A date, a time of day, or both. -/
  | time
  | array (items : List Value)
  /-- A table, and whether dotted keys made it. -/
  | table (dotted : Bool) (entries : List (String × Value))

/-- Entries of a table in the order of the text. -/
abbrev Entries := List (String × Value)

/-! ## Numbers -/

/-- Reads a row of digits with single underscores between them: their values, and the characters
behind them. `first` is set before any digit was read, `zero` after a leading zero, `gap` after an
underscore. Only with `zeros` may more digits follow a leading zero. -/
def readDigits (radix : Nat) (zeros first zero gap : Bool) :
    List Char → Option (List Nat × List Char)
  | [] => if first || gap then none else some ([], [])
  | c :: rest =>
    let more (d : Nat) (r : Option (List Nat × List Char)) :=
      r.map fun (ds, rest) => (d :: ds, rest)
    match digit? radix c with
    | some d =>
      if !first && zero && !zeros then none
      else more d (readDigits radix zeros false (zero || (first && c == '0')) false rest)
    | none =>
      if c = '_' && first then none
      else if c = '_' && !gap then readDigits radix zeros first zero true rest
      else if first || gap then none
      else some ([], c :: rest)

/-- Reads a row of digits behind an optional minus sign. -/
def readSigned (zeros : Bool) : List Char → Option (Bool × List Nat × List Char)
  | '-' :: rest => (readDigits 10 zeros true false false rest).map fun r => (true, r)
  | cs => (readDigits 10 zeros true false false cs).map fun r => (false, r)

/-- The number that digits spell. -/
def ofDigits (radix : Nat) (digits : List Nat) : Nat :=
  digits.foldl (fun acc d => acc * radix + d) 0

def integer? (n : Int) : Option Value :=
  if -9223372036854775808 ≤ n ∧ n < 9223372036854775808 then some (.integer n) else none

def readInteger (radix : Nat) (cs : List Char) : Option Value :=
  if radix = 10 then
    match readSigned false cs with
    | some (negative, digits, []) =>
      integer? (if negative then -(ofDigits 10 digits : Int) else ofDigits 10 digits)
    | _ => none
  else
    match readDigits radix true true false false cs with
    | some (digits, []) => integer? (ofDigits radix digits)
    | _ => none

/-- From here on a number is rounded to infinity in 64 bits. -/
def floatBound : Nat := Nat.pow 2 1024 - Nat.pow 2 970

/-- Whether digits, `places` of them behind the point, times a power of ten are a finite number of
64 bits. Far from the bound the place of the first digit decides. -/
def isFinite (digits : List Nat) (places : Nat) (exponent : Int) : Bool :=
  let digits := digits.dropWhile (· == 0)
  let shift := exponent - places
  if digits.isEmpty || shift + digits.length < 300 then true
  else if 320 < shift + digits.length then false
  else if 0 ≤ shift then ofDigits 10 digits * Nat.pow 10 shift.toNat < floatBound
  else ofDigits 10 digits < floatBound * Nat.pow 10 (-shift).toNat

/-- Reads a number with a fraction or an exponent: `whole` is the word in front of the point,
`fraction` the one behind it. A plus sign cuts the exponent off the word. -/
def readFloat (whole : List Char) (fraction : Option (List Char)) (ts : List Token) :
    Option (Value × List Token) := do
  let (_, digits, suffix) ← readSigned false whole
  let (places, suffix) ← match fraction with
    | none => some ([], suffix)
    | some after => if suffix.isEmpty then readDigits 10 true true false false after else none
  let finish (negative : Bool) (exponent : List Nat) (rest : List Char) (ts : List Token) :=
    let e : Int := ofDigits 10 exponent
    if rest.isEmpty && isFinite (digits ++ places) places.length (if negative then -e else e) then
      some (Value.float, ts)
    else none
  match suffix with
  | [] => finish false [] [] ts
  | e :: rest =>
    if e ≠ 'e' ∧ e ≠ 'E' then none
    else if rest.isEmpty then
      match (if ts.head? = some .plus then ts.tail else ts) with
      | .word w :: ts =>
        let (exponent, rest) ← readDigits 10 true true false false w
        finish false exponent rest ts
      | _ => none
    else
      let (negative, exponent, rest) ← readSigned true rest
      finish negative exponent rest ts

/-- Words for what is no number. -/
def specialFloats : List (List Char) :=
  ["inf".toList, "-inf".toList, "nan".toList, "-nan".toList]

/-- Reads a number that starts with a word. -/
def readNumber (w : List Char) (ts : List Token) : Option (Value × List Token) :=
  let whole (v : Option Value) := v.map fun v => (v, ts)
  match w with
  | '0' :: 'x' :: digits => whole (readInteger 16 digits)
  | '0' :: 'o' :: digits => whole (readInteger 8 digits)
  | '0' :: 'b' :: digits => whole (readInteger 2 digits)
  | _ =>
    if w.contains 'e' || w.contains 'E' then readFloat w none ts
    else match ts with
      | .period :: .word after :: ts => readFloat w (some after) ts
      | .period :: _ => none
      | _ => if specialFloats.contains w then some (.float, ts) else whole (readInteger 10 w)

/-! ## Points in time -/

/-- Passes over a word behind a mark, if the mark is there. -/
def skipMarked (mark : Token) : List Token → Option (List Token)
  | [] => some []
  | t :: rest =>
    if t = mark then
      match rest with
      | .word _ :: rest => some rest
      | _ => none
    else some (t :: rest)

/-- Passes over minutes and seconds, and the fraction and the offset that may follow. -/
def skipTime : List Token → Option (List Token)
  | .word _ :: .colon :: .word _ :: rest =>
    skipMarked .period rest >>= skipMarked .plus >>= skipMarked .colon
  | _ => none

/-- Passes over the rest of a point in time behind its first word, and its first colon if `colon`
is set. What the words say is not looked at. -/
def readTime (colon : Bool) (ts : List Token) : Option (Value × List Token) :=
  let ts := match ts with
    | .blank true :: .word _ :: rest => rest
    | _ => ts
  let rest :=
    if colon then skipTime ts
    else match ts with
      | .colon :: rest => skipTime rest
      | _ => some ts
  rest.map fun rest => (.time, rest)

/-! ## Keys -/

def skipBlank : List Token → List Token
  | .blank _ :: rest => rest
  | ts => ts

def readKey : List Token → Option (String × List Token)
  | .word w :: rest => some (String.ofList w, rest)
  | .text content false :: rest => some (content, rest)
  | _ => none

/-- Reads a key, whose parts have dots between them, and the blanks behind it. -/
def readPath : Nat → List Token → Option (List String × List Token)
  | 0, _ => none
  | fuel + 1, ts =>
    match readKey ts with
    | none => none
    | some (key, rest) =>
      match skipBlank rest with
      | .period :: rest => (readPath fuel (skipBlank rest)).map fun (path, rest) => (key :: path, rest)
      | rest => some ([key], rest)

/-- Replaces the first entry of a key by what `f` makes of it, or appends what it makes of
nothing. -/
def alter (key : String) (f : Option Value → Option Value) : Entries → Option Entries
  | [] => (f none).map fun v => [(key, v)]
  | (k, v) :: rest =>
    if k = key then (f (some v)).map fun v => (k, v) :: rest
    else (alter key f rest).map ((k, v) :: ·)

/-- Adds an entry. A key may occur twice here; who reads the table minds. -/
def addEntry (v : Value) : List String → Entries → Option Entries
  | [], entries => some entries
  | [key], entries => some (entries ++ [(key, v)])
  | key :: path, entries =>
    alter key (fun
      | some (.table true inner) => (addEntry v path inner).map (.table true ·)
      | some _ => none
      | none => (addEntry v path []).map (.table true ·)) entries

/-! ## Values -/

def readWord (w : List Char) (ts : List Token) : Option (Value × List Token) :=
  if w = "true".toList then some (.boolean true, ts)
  else if w = "false".toList then some (.boolean false, ts)
  else
    let special := w = "inf".toList || w = "nan".toList
    let numeric := match w with
      | c :: _ => c == '-' || (digit? 10 c).isSome
      | [] => false
    let dashed := w.tail.contains '-' &&
      !(w.zip w.tail).any fun (a, b) => (a == 'e' || a == 'E') && b == '-'
    if !(special || numeric) then none
    else if w.contains 'T' || w.contains 't' || dashed then readTime false ts
    else match ts with
      | .colon :: rest => readTime true rest
      | _ => readNumber w ts

def skipLines : List Token → Option (List Token)
  | .blank _ :: rest => skipLines rest
  | .newline :: rest => skipLines rest
  | .comment :: .newline :: rest => skipLines rest
  | .comment :: [] => some []
  | .comment :: _ => none
  | ts => some ts

mutual

def readValue : Nat → List Token → Option (Value × List Token)
  | 0, _ => none
  | fuel + 1, ts =>
    match ts with
    | .text content _ :: rest => some (.text content, rest)
    | .word w :: rest => readWord w rest
    | .plus :: .word w :: rest => readNumber w rest
    | .openBracket :: rest => (readItems fuel rest).map fun (items, rest) => (.array items, rest)
    | .openBrace :: rest =>
      match skipBlank rest with
      | .closeBrace :: rest => some (.table false [], rest)
      | rest => (readEntries fuel [] rest).map fun (entries, rest) => (.table false entries, rest)
    | _ => none

/-- Reads the items of an array and the closing bracket. A comma may follow the last item. -/
def readItems : Nat → List Token → Option (List Value × List Token)
  | 0, _ => none
  | fuel + 1, ts =>
    match skipLines ts with
    | none => none
    | some (.closeBracket :: rest) => some ([], rest)
    | some ts =>
      match readValue fuel ts with
      | none => none
      | some (v, rest) =>
        match skipLines rest with
        | some (.comma :: rest) => (readItems fuel rest).map fun (vs, rest) => (v :: vs, rest)
        | some (.closeBracket :: rest) => some ([v], rest)
        | _ => none

/-- Reads at least one entry of a table in braces, and the closing brace. -/
def readEntries : Nat → Entries → List Token → Option (Entries × List Token)
  | 0, _, _ => none
  | fuel + 1, entries, ts =>
    match readPath fuel ts with
    | some (path, .equals :: rest) =>
      match readValue fuel (skipBlank rest) with
      | none => none
      | some (v, rest) =>
        match addEntry v path entries, skipBlank rest with
        | some entries, .closeBrace :: rest => some (entries, rest)
        | some entries, .comma :: rest => readEntries fuel entries (skipBlank rest)
        | _, _ => none
    | _ => none

end

/-- Reads a value from the front of a row of tokens. Two rounds take at least one token. -/
def Value.read (ts : List Token) : Option (Value × List Token) :=
  readValue (2 * ts.length + 2) ts

end Toml

end Parley
