import Parley.Toml.Value

/-!
# Documents of TOML

A document is a row of lines: headers that open a section, and entries of the section opened last.
Sections make a tree of tables; a header in double brackets appends a table to an array.

- `parse?` gives the table that a whole text stands for.
-/

namespace Parley

namespace Toml

/-- A line that is not blank. -/
inductive Line
  | header (path : List String) (inArray : Bool)
  | entry (path : List String) (v : Value)

/-- The end of a line: a comment perhaps, then a line end or the end of the text. -/
def readLineEnd (ts : List Token) : Option (List Token) :=
  let ts := match ts with
    | .comment :: rest => rest
    | _ => ts
  match ts with
  | [] => some []
  | .newline :: rest => some rest
  | _ => none

/-- Reads a header behind its first bracket. -/
def readHeader (ts : List Token) : Option (Line × List Token) := do
  let (inArray, ts) := match ts with
    | .openBracket :: rest => (true, rest)
    | _ => (false, ts)
  let (path, ts) ← readPath ts.length (skipBlank ts)
  let ts ← match inArray, ts with
    | true, .closeBracket :: .closeBracket :: rest => some rest
    | false, .closeBracket :: rest => some rest
    | _, _ => none
  let ts ← readLineEnd (skipBlank ts)
  some (.header path inArray, ts)

def readEntry (ts : List Token) : Option (Line × List Token) := do
  match ← readPath ts.length ts with
  | (path, .equals :: ts) =>
    let (v, ts) ← Value.read (skipBlank ts)
    let ts ← readLineEnd (skipBlank ts)
    some (.entry path v, ts)
  | _ => none

/-- Reads up to `fuel` lines that fill the text. -/
def readLines : Nat → List Token → Option (List Line)
  | 0, _ => none
  | fuel + 1, ts =>
    match skipLines ts with
    | none => none
    | some [] => some []
    | some (t :: ts) =>
      match (if t = .openBracket then readHeader ts else readEntry (t :: ts)) with
      | none => none
      | some (line, rest) => (readLines fuel rest).map (line :: ·)

/-- A section: where it hangs in the tree, and its own entries. -/
structure Section where
  path : List String
  inArray : Bool
  entries : Entries

/-- Sorts the lines into sections. Entries in front of the first header belong to the section at
the root. -/
def sectionsOf (current : Section) : List Line → Option (List Section)
  | [] => some [current]
  | .header path inArray :: rest =>
    (sectionsOf ⟨path, inArray, []⟩ rest).map (current :: ·)
  | .entry path v :: rest =>
    match addEntry v path current.entries with
    | some entries => sectionsOf { current with entries := entries } rest
    | none => none

/-- A node of the tree of sections. -/
inductive Node
  /-- A table, whether a header opened it, its own entries, and the tables below it. -/
  | table (opened : Bool) (entries : Entries) (below : List (String × Node))
  /-- An array of tables, the last one first. -/
  | array (last : Node) (earlier : List Node)

namespace Node

/-- A table that some header below it made necessary. -/
def implicit : Node := table false [] []

def ofSection (s : Section) : Node := table true s.entries []

def below? (key : String) (nodes : List (String × Node)) : Option Node :=
  (nodes.find? (·.1 == key)).map (·.2)

def put (key : String) (n : Node) (nodes : List (String × Node)) : List (String × Node) :=
  nodes.filter (·.1 != key) ++ [(key, n)]

/-- Opens a section where its path has come to its end. A table can be opened once; an array takes
any number of tables, but no header that opens it as a table. -/
def opening (s : Section) : Option Node → Option Node
  | none => some (if s.inArray then array (ofSection s) [] else ofSection s)
  | some (table false [] nodes) => if s.inArray then none else some (table true s.entries nodes)
  | some (table _ _ _) => none
  | some (array last earlier) =>
    if s.inArray then some (array (ofSection s) (last :: earlier)) else none

/-- Hangs a section into the tree, `path` being the rest of its path. A path that meets an array
goes on in the last table of it. -/
def insert (s : Section) : List String → Option Node → Option Node
  | [], n => opening s n
  | key :: path, none =>
    (insert s path none).map fun n => table false [] [(key, n)]
  | key :: path, some (table opened entries nodes) =>
    (insert s path (below? key nodes)).map fun n => table opened entries (put key n nodes)
  | key :: path, some (array (table opened entries nodes) earlier) =>
    (insert s path (below? key nodes)).map fun n =>
      array (table opened entries (put key n nodes)) earlier
  | _ :: _, some (array (array _ _) _) => none

mutual

def toValue : Node → Value
  | table _ entries nodes => .table false (entries ++ entriesOf nodes)
  | array last earlier => .array (valuesOf earlier ++ [toValue last])

def entriesOf : List (String × Node) → Entries
  | [] => []
  | (key, n) :: rest => (key, toValue n) :: entriesOf rest

/-- The values of nodes, the last one first. -/
def valuesOf : List Node → List Value
  | [] => []
  | n :: rest => valuesOf rest ++ [toValue n]

end

end Node

def treeOf (sections : List Section) : Option Node :=
  sections.foldl (fun tree s => tree.bind fun n => Node.insert s s.path (some n)) (some .implicit)

def parse? (text : String) : Option Entries := do
  let ts ← Token.ofText? text
  let lines ← readLines (ts.length + 1) ts
  let sections ← sectionsOf ⟨[], false, []⟩ lines
  match (← treeOf sections).toValue with
  | .table _ entries => some entries
  | _ => none

end Toml

end Parley
