/-!
# Similar words

Tells whether a word was probably meant to be another one, by the similarity of Jaro in the variant
of Winkler: the share of characters that two words have in common at nearly the same places, less
the share of those out of order, raised by a tenth of what is missing for each common first
character. All is computed with whole numbers over a common denominator.
-/

namespace Parley

namespace CommandLine

/-- How the letters of a word are matched with those of another one. -/
structure Matching where
  used : List Bool
  /-- Number of letters matched. -/
  common : Nat
  /-- Number of letters matched further to the front than the one before. -/
  swapped : Nat
  /-- Place of the last match. -/
  last : Nat

/-- Matches one letter, which stands at place `i`, with the first unused equal letter of `other`
at most `range` places away. -/
def Matching.step (other : List Char) (range : Nat) (m : Matching) (c : Char) (i : Nat) : Matching :=
  let fits (j : Nat) : Bool :=
    i - range ≤ j && j ≤ i + range && other[j]? == some c && m.used[j]? == some false
  match (List.range other.length).find? fits with
  | some j => ⟨m.used.set j true, m.common + 1, if j < m.last then m.swapped + 1 else m.swapped, j⟩
  | none => m

def Matching.of (word other : List Char) : Matching :=
  let range := max word.length other.length / 2 - 1
  word.zipIdx.foldl (fun m (c, i) => m.step other range c i)
    ⟨List.replicate other.length false, 0, 0, 0⟩

/-- Number of equal letters at the front of two words. -/
def commonFront : List Char → List Char → Nat
  | a :: as, b :: bs => if a = b then commonFront as bs + 1 else 0
  | _, _ => 0

/-- Whether the similarity of two words is more than four fifths. -/
def resembles (a b : String) : Bool :=
  let (s, t) := (a.toList, b.toList)
  let (m, n) := (s.length, t.length)
  if m = 0 || n = 0 then m == n
  else if m = 1 && n = 1 then s == t
  else
    let found := Matching.of s t
    let k := found.common
    let whole := 3 * m * n * k
    let share := k * n * k + m * k * k + (k - found.swapped) * m * n
    8 * whole < 10 * share + commonFront s t * (whole - share)

end CommandLine

end Parley
