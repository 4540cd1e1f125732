import Parley.Grid.Coordinator
import Parley.Grid.Worker
import Parley.Primes.Trial
import Parley.Wire.Encoding

/-!
# The prime search as a grid computation

The numbers below a limit are cut into ranges of equal size, one job each. A job is the first
number of its range; size and limit are what all jobs have in common.

- `rangesNeeded` is the number of ranges, `ranges` the source of the jobs.
- `search` is what a worker computes.
-/

namespace Parley

namespace Primes

open Wire

/-- What all ranges have in common. -/
structure SearchParams where
  /-- Numbers in a range. -/
  batch : UInt64
  /-- The search ends below this number. -/
  limit : UInt64
deriving DecidableEq, Repr

namespace SearchParams

def fields : Record := [⟨"batch", .uint .w64⟩, ⟨"limit", .uint .w64⟩]

def toFields (p : SearchParams) : fields.Val := (p.batch, p.limit, ())

def ofFields (v : fields.Val) : SearchParams := ⟨v.1, v.2.1⟩

/-- The parameters that a worker has before it gets any. -/
def initial : SearchParams := ⟨10000, 18446744073709551615⟩

/-- The number behind the range that starts at `start`. The sum stays at the last number where it
would not fit. -/
def stop (p : SearchParams) (start : UInt64) : UInt64 :=
  min (if start ≤ 18446744073709551615 - p.batch then start + p.batch else 18446744073709551615)
    p.limit

end SearchParams

/-- The number of ranges, the last one being shorter if it has to; `none` if the sum that rounds
up does not fit 64 bits. -/
def rangesNeeded (p : SearchParams) : Option UInt64 :=
  if p.limit.toNat + p.batch.toNat < 18446744073709551616 then
    some ((p.limit + p.batch - 1) / p.batch)
  else none

/-- Packs what cannot fail to be packed. -/
def packed (r : Except Error Bytes) : Bytes :=
  match r with
  | .ok bs => bs
  | .error _ => []

def rangeJob (e : Encoding) (start : UInt64) : Bytes :=
  packed (e.pack .full (.uint .w64) start)

/-- The source of ranges. Its state is the start of the next one, which wraps around; no job
starts above the limit. -/
def ranges (e : Encoding) (p : SearchParams) : JobSource UInt64 where
  init _ := packed (e.packRecord .full SearchParams.fields p.toFields)
  next start := (rangeJob e (min start p.limit), start + p.batch)

/-- What a search of a range gives. A range without primes counts as an incorrect result. -/
def outcome (e : Encoding) (primes : List UInt64) : Computed :=
  match e.pack .full (.list (.uint .w64)) primes with
  | .ok bs => .done ⟨!primes.isEmpty, bs⟩
  | .error cause => .failed cause

def searchRange (e : Encoding) (p : SearchParams) (job : Job) : Computed :=
  match e.unpack .full (.uint .w64) job.data with
  | .error cause => .failed cause
  | .ok start =>
    match primesIn start (p.stop start) with
    | some primes => outcome e primes
    | none => .broke

/-- What a worker computes. Its state is what it was told last about the ranges. -/
def search (e : Encoding) : Computation SearchParams where
  setInit data p :=
    match e.unpackRecord .full SearchParams.fields data with
    | .ok v => (.ofFields v, none)
    | .error cause => (p, some (.paramsUnreadable cause))
  compute := searchRange e

end Primes

end Parley
