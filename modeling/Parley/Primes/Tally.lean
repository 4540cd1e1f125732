import Parley.Primes.Search

/-!
# The tally of the prime search

Counts what is reported about the ranges. Jobs behind the last range are left out of the count; a
result that cannot be read is left out, too. When the last range is counted the tally signals that
the search is done.
-/

namespace Parley

namespace Primes

/-- What has been reported so far. -/
structure Tally where
  encoding : Encoding
  /-- Number of ranges of the whole search. -/
  needed : UInt64
  /-- Number of ranges searched. -/
  ranges : Nat
  /-- Number of ranges given up. -/
  failed : Nat
  /-- Number of primes found. -/
  primes : Nat
  /-- The largest of them, or zero. -/
  largest : UInt64
  signals : Nat
  journal : List Notice
deriving DecidableEq, Repr

namespace Tally

/-- The tally of a search in `needed` ranges before its first report. -/
def new (e : Encoding) (needed : UInt64) : Tally := ⟨e, needed, 0, 0, 0, 0, 0, []⟩

/-- Number of ranges that are through. -/
def finished (t : Tally) : Nat := t.ranges + t.failed

def covers (t : Tally) (job : JobId) : Bool := job.toNat < t.needed.toNat

/-- Signals the end if all ranges are through. -/
def checkDone (t : Tally) : Tally :=
  if t.finished = t.needed.toNat then { t with signals := t.signals + 1 } else t

def count (t : Tally) (primes : List UInt64) : Tally :=
  checkDone { t with
    ranges := t.ranges + 1
    primes := t.primes + primes.length
    largest := primes.foldl max t.largest }

/-- The primes in a result. A result without data has none. -/
def primesOf (t : Tally) : Option Bytes → Except Error (List UInt64)
  | none => .ok []
  | some data => t.encoding.unpack .full (.list (.uint .w64)) data

def result (t : Tally) (job : JobId) (data : Option Bytes) : Tally :=
  if t.covers job then
    match t.primesOf data with
    | .ok primes => t.count primes
    | .error cause => { t with journal := t.journal ++ [.resultUnreadable job cause] }
  else t

def givenUp (t : Tally) (job : JobId) : Tally :=
  if t.covers job then
    checkDone { t with failed := t.failed + 1, journal := t.journal ++ [.rangeNotSearched job] }
  else t

/-- Takes what a coordinator tells about a job. Whether the result was called correct plays no
role. -/
def take (t : Tally) : JobEvent → Tally
  | .reported job _ data => t.result job data
  | .givenUp job => t.givenUp job

/-- Searches the first `count` ranges one after the other, without a grid, and counts what is found.
Ranges whose search fails are passed over. -/
def searchAll (t : Tally) (p : SearchParams) (count : Nat) : Tally :=
  let source := Primes.ranges t.encoding p
  let worker := search t.encoding
  let known := (worker.setInit (source.init 0) .initial).1
  ((source.take count 0).zipIdx.foldl fun t (data, i) =>
    match worker.compute known (.new (UInt32.ofNat i) data 0) with
    | .done o => t.result (UInt32.ofNat i) (some o.result)
    | _ => t) t

end Tally

end Primes

end Parley
