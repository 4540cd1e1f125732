import Parley.Text.Decimal

/-!
# Socket addresses

A host, given by its number, and a port. An address has one written form: four decimal octets, or
eight hexadecimal groups in square brackets with the longest run of zero groups left out. Behind the
groups stands the number of the network that they belong to, unless it is zero.

- `Address.parse?` reads every form that denotes an address, `Address.toString` writes the one form.
- `Endpoint.parse` also takes a host by name, as the command line does, and says what is wrong with
  a word that is neither.
-/

namespace Parley

/-- The number of a host: four octets or eight groups of sixteen bits. Groups that are unique only
within a network come with the number of the network as their scope. -/
inductive Host
  | v4 (octets : Vector UInt8 4)
  | v6 (groups : Vector UInt16 8) (scope : UInt32)
deriving DecidableEq, Repr

/-- A host and a port. -/
structure Address where
  host : Host
  port : UInt16
deriving DecidableEq, Repr

namespace Host

/-- The pieces of `cs` between the separators. -/
def splitAt (separator : Char) : List Char → List (List Char)
  | [] => [[]]
  | c :: rest =>
    if c = separator then [] :: splitAt separator rest
    else match splitAt separator rest with
      | [] => [[c]]
      | piece :: pieces => (c :: piece) :: pieces

/-- An octet: up to three digits without a leading zero. -/
def octet? (cs : List Char) : Option UInt8 :=
  match cs with
  | [] => none
  | ['0'] => some 0
  | '0' :: _ => none
  | _ =>
    if cs.length ≤ 3 then
      (Decimal.digits? 0 cs).bind fun n => if n < 256 then some (UInt8.ofNat n) else none
    else none

def octets? (cs : List Char) : Option (Vector UInt8 4) :=
  match splitAt '.' cs with
  | [a, b, c, d] => do
    let a ← octet? a
    let b ← octet? b
    let c ← octet? c
    let d ← octet? d
    pure #v[a, b, c, d]
  | _ => none

def hexDigit? (c : Char) : Option Nat :=
  if '0' ≤ c ∧ c ≤ '9' then some (c.toNat - '0'.toNat)
  else if 'a' ≤ c ∧ c ≤ 'f' then some (c.toNat - 'a'.toNat + 10)
  else if 'A' ≤ c ∧ c ≤ 'F' then some (c.toNat - 'A'.toNat + 10)
  else none

/-- A group: one to four hexadecimal digits. -/
def group? (cs : List Char) : Option UInt16 :=
  if cs.isEmpty || 4 < cs.length then none
  else (cs.foldlM (fun acc c => (hexDigit? c).map (acc * 16 + ·)) 0).map UInt16.ofNat

/-- Groups between colons. The last two may stand as a dotted form if `dotted` allows it. -/
def groups? (dotted : Bool) : List (List Char) → Option (List UInt16)
  | [] => some []
  | [piece] =>
    match group? piece with
    | some g => some [g]
    | none =>
      if dotted then
        (octets? piece).map fun o =>
          [o[0].toUInt16 * 256 + o[1].toUInt16, o[2].toUInt16 * 256 + o[3].toUInt16]
      else none
  | piece :: rest => do
    let g ← group? piece
    let gs ← groups? dotted rest
    pure (g :: gs)

/-- What stands before and after the first `::`, if there is one. -/
def splitGap : List Char → Option (List Char × List Char)
  | ':' :: ':' :: rest => some ([], rest)
  | [] => none
  | c :: rest => (splitGap rest).map fun (before, after) => (c :: before, after)

/-- The groups of one side of a gap; an empty side has none. -/
def side? (dotted : Bool) (cs : List Char) : Option (List UInt16) :=
  if cs.isEmpty then some [] else groups? dotted (splitAt ':' cs)

def ofGroups? (gs : List UInt16) : Option (Vector UInt16 8) :=
  if h : gs.toArray.size = 8 then some ⟨gs.toArray, h⟩ else none

/-- The groups of a colon form. A gap stands for at least one zero group. -/
def allGroups? (cs : List Char) : Option (Vector UInt16 8) :=
  match splitGap cs with
  | none => (groups? true (splitAt ':' cs)).bind ofGroups?
  | some (before, after) => do
    let head ← side? false before
    let tail ← side? true after
    if head.length + tail.length ≤ 7 then
      ofGroups? (head ++ List.replicate (8 - head.length - tail.length) 0 ++ tail)
    else none

/-- A scope: digits with a value below 2³². -/
def scope? (cs : List Char) : Option UInt32 :=
  if cs.isEmpty then none
  else (Decimal.digits? 0 cs).bind fun n => if n < 4294967296 then some (UInt32.ofNat n) else none

/-- A colon form, with a scope behind a percent sign if there is one. -/
def v6? (cs : List Char) : Option Host :=
  match splitAt '%' cs with
  | [groups] => (allGroups? groups).map (.v6 · 0)
  | [groups, scope] => do
    let groups ← allGroups? groups
    let scope ← scope? scope
    pure (.v6 groups scope)
  | _ => none

def groupChars (g : UInt16) : List Char :=
  Nat.toDigits 16 g.toNat

def groupsChars (gs : List UInt16) : List Char :=
  List.intercalate [':'] (gs.map groupChars)

/-- Number of zero groups at the front. -/
def zerosAt (gs : List UInt16) : Nat :=
  (gs.takeWhile (· == 0)).length

/-- Start and length of the first longest run of zero groups. -/
def longestGap (gs : List UInt16) : Nat × Nat :=
  (List.range gs.length).foldl (fun best i =>
    let n := zerosAt (gs.drop i)
    if best.2 < n then (i, n) else best) (0, 0)

def octetsChars (octets : List UInt8) : List Char :=
  List.intercalate ['.'] (octets.map fun o => Decimal.toChars o.toNat)

/-- The one written form of a group address. An address that embeds four octets shows them. -/
def v6Chars (gs : List UInt16) : List Char :=
  match gs with
  | [0, 0, 0, 0, 0, 0xffff, high, low] =>
    "::ffff:".toList ++
      octetsChars [(high >>> 8).toUInt8, high.toUInt8, (low >>> 8).toUInt8, low.toUInt8]
  | _ =>
    let (start, length) := longestGap gs
    if 1 < length then
      groupsChars (gs.take start) ++ [':', ':'] ++ groupsChars (gs.drop (start + length))
    else groupsChars gs

def scopeChars (scope : UInt32) : List Char :=
  if scope = 0 then [] else '%' :: Decimal.toChars scope.toNat

end Host

namespace Address

/-- A port: digits with a value below 2¹⁶. -/
def port? (cs : List Char) : Option UInt16 :=
  if cs.isEmpty then none
  else (Decimal.digits? 0 cs).bind fun n => if n < 65536 then some (UInt16.ofNat n) else none

/-- What stands before and after the last colon. -/
def splitPort (cs : List Char) : Option (List Char × List Char) :=
  let after := cs.reverse.takeWhile (· != ':')
  match cs.reverse.drop after.length with
  | _ :: before => some (before.reverse, after.reverse)
  | [] => none

def parse? (text : String) : Option Address := do
  let (host, port) ← splitPort text.toList
  let port ← port? port
  match host with
  | '[' :: rest =>
    match rest.reverse with
    | ']' :: inner => (Host.v6? inner.reverse).map (⟨·, port⟩)
    | _ => none
  | _ => (Host.octets? host).map fun o => ⟨.v4 o, port⟩

/-- The one written form. -/
protected def toString (a : Address) : String :=
  match a.host with
  | .v4 o => String.ofList (Host.octetsChars o.toList ++ ':' :: Decimal.toChars a.port.toNat)
  | .v6 g scope =>
    String.ofList ('[' :: Host.v6Chars g.toList ++ Host.scopeChars scope ++
      ']' :: ':' :: Decimal.toChars a.port.toNat)

instance : ToString Address := ⟨Address.toString⟩

def ipv4 (a b c d : UInt8) (port : UInt16) : Address :=
  ⟨.v4 #v[a, b, c, d], port⟩

end Address

/-- Where to connect to or listen: an address, or a host that has to be looked up by name. -/
inductive Endpoint
  | at (address : Address)
  | named (host : String) (port : UInt16)
deriving DecidableEq, Repr

namespace Endpoint

/-- Why a word is no endpoint. -/
inductive Fault
  | noPort
  /-- What follows the last colon is no port. -/
  | badPort
deriving DecidableEq, Repr

/-- The text of a fault, as it is shown to users. -/
def Fault.message : Fault → String
  | .noPort => "invalid socket address"
  | .badPort => "invalid port value"

def parse (text : String) : Except Fault Endpoint :=
  match Address.parse? text with
  | some address => .ok (.at address)
  | none =>
    match Address.splitPort text.toList with
    | none => .error .noPort
    | some (host, port) =>
      match Decimal.parseBelow 65536 (String.ofList port) with
      | .ok n => .ok (.named (String.ofList host) (UInt16.ofNat n))
      | .error _ => .error .badPort

end Endpoint

end Parley
