import Parley.CommandLine.Grammar
import Parley.CommandLine.Similarity

/-!
# Reading the command line

Words are read from left to right: options, then a subcommand, then its own options and its
address. The value of an option is joined to its name or is the next word; a word that starts with
a dash is an option unless it follows two dashes that stand alone.

- `Matches.ofWords` gives what a command line says, or why it is refused.
-/

namespace Parley

namespace CommandLine

/-- Why a command line leads to no action. -/
inductive Refusal
  | help
  | version
  | noSubcommand
  /-- There is no subcommand of this name, but one of a similar name. -/
  | misspelledSubcommand (word : String)
  | noSuchSubcommand (word : String)
  | unknownWord (word : String)
  | noAddress
  /-- An option without a value. -/
  | noValue (setting : Setting)
  | repeated (setting : Setting)
deriving DecidableEq, Repr

/-- What was read of one part of the command line, before or behind the subcommand. -/
structure Reading where
  /-- Every use of an option, with its value if it has one. -/
  uses : List (Setting × Option String)
  /-- Whether the value of the last use may be the next word. -/
  pending : Bool
  /-- Whether two dashes have ended the options. -/
  plain : Bool
  address : Option String
deriving DecidableEq, Repr

namespace Reading

/-- Nothing read. -/
def empty : Reading := ⟨[], false, false, none⟩

def use (r : Reading) (s : Setting) (value : Option String) : Reading :=
  { r with uses := r.uses ++ [(s, value)], pending := value.isNone }

/-- Gives the last use its value. -/
def fill (r : Reading) (value : String) : Reading :=
  { r with
    uses := r.uses.dropLast ++ (r.uses.getLast?.map fun (s, _) => (s, some value)).toList
    pending := false }

/-- The value behind an equals sign; more equals signs in front of it do not count. -/
def afterEquals (cs : List Char) : String :=
  String.ofList (cs.dropWhile (· == '='))

def long (r : Reading) (settings : List Setting) (word : String) : Except Refusal Reading :=
  let letters := word.toList.dropWhile (· == '-')
  let key := String.ofList (letters.takeWhile (· != '='))
  let value := match letters.dropWhile (· != '=') with
    | [] => none
    | _ :: rest => some (afterEquals rest)
  match settings.find? (·.long == key) with
  | some s => .ok (r.use s value)
  | none =>
    if key = "help" then .error .help
    else if key = "version" then .error .version
    else .error (.unknownWord word)

def short (r : Reading) (settings : List Setting) (word : String) : Except Refusal Reading :=
  match word.toList.dropWhile (· == '-') with
  | [] => .error (.unknownWord word)
  | c :: rest =>
    match settings.find? (·.letter == c) with
    | some s => .ok (r.use s (if rest.isEmpty then none else some (afterEquals rest)))
    | none =>
      if c = 'h' then .error .help
      else if c = 'V' then .error .version
      else .error (.unknownWord word)

/-- Reads a word that is no option: the address, which only a subcommand has. -/
def bare (r : Reading) (sub : Option Subcommand) (word : String) : Except Refusal Reading :=
  match sub with
  | none =>
    if commandWords.any (resembles word) then .error (.misspelledSubcommand word)
    else .error (.unknownWord word)
  | some _ =>
    match r.address with
    | none => .ok { r with address := some word, pending := false }
    | some _ => .error (.unknownWord word)

/-- Reads one word; `sub` is the subcommand it stands behind, if any. -/
def step (sub : Option Subcommand) (r : Reading) (word : String) : Except Refusal Reading :=
  let settings := (sub.map (·.settings)).getD Setting.common
  if r.plain then r.bare sub word
  else if word = "--" then .ok { r with plain := true }
  else if word.startsWith "--" then r.long settings word
  else if word.startsWith "-" && word != "-" then r.short settings word
  else if r.pending then .ok (r.fill word)
  else r.bare sub word

/-- The first value of an option. -/
def value? (r : Reading) (s : Setting) : Option String :=
  r.uses.findSome? fun (t, v) => if t = s then v else none

def mentions (r : Reading) (s : Setting) : Bool :=
  r.uses.any (·.1 == s)

/-- Checks the uses of one option. One without a value falls back on what it is worth otherwise. -/
def checkSetting (r : Reading) (s : Setting) : Except Refusal Unit :=
  if r.mentions s && (r.value? s).isNone && s.fallback?.isNone then .error (.noValue s)
  else if 1 < (r.uses.filter (·.1 == s)).length then .error (.repeated s)
  else .ok ()

/-- Checks a whole part. A last option without a value is told first. -/
def check (r : Reading) (settings : List Setting) : Except Refusal Unit := do
  match r.pending, r.uses.getLast? with
  | true, some (s, _) =>
    if (r.value? s).isNone && s.fallback?.isNone then throw (.noValue s)
  | _, _ => pure ()
  settings.forM r.checkSetting

end Reading

/-- What a command line says. -/
structure Matches where
  subcommand : Subcommand
  address : String
  before : Reading
  /-- What stands behind it. -/
  behind : Reading
deriving DecidableEq, Repr

namespace Matches

/-- The value of an option. What stands behind the subcommand goes before what stands in front of
it. -/
def value? (m : Matches) (s : Setting) : Option String :=
  if m.subcommand.settings.contains s then
    let r := if m.behind.mentions s then m.behind else m.before
    (r.value? s).or s.fallback?
  else none

/-- Answers a request for help on some word or none. -/
def helpOn : List String → Refusal
  | [] => .help
  | [word] => if commandWords.contains word then .help else .noSuchSubcommand word
  | word :: other :: _ =>
    .noSuchSubcommand (if commandWords.contains word then other else word)

/-- Reads what stands behind the subcommand. -/
def readBehind (before : Reading) (sub : Subcommand) (words : List String) :
    Except Refusal Matches := do
  let r ← words.foldlM (Reading.step (some sub)) .empty
  match r.address with
  | none => throw .noAddress
  | some address =>
    r.check sub.settings
    before.check Setting.common
    pure ⟨sub, address, before, r⟩

/-- Reads the words of a command line from the subcommand on, or from an option in front of it. -/
def readFrom (r : Reading) : List String → Except Refusal Matches
  | [] => .error .noSubcommand
  | word :: rest =>
    -- the value of an option and a word behind two dashes are no subcommand
    let free := !r.plain && !r.pending
    match Subcommand.ofName? word with
    | some sub =>
      if free then readBehind r sub rest
      else (Reading.step none r word).bind fun r => readFrom r rest
    | none =>
      if free && word == "help" then .error (helpOn rest)
      else (Reading.step none r word).bind fun r => readFrom r rest

def ofWords (words : List String) : Except Refusal Matches :=
  readFrom .empty words

end Matches

end CommandLine

end Parley
