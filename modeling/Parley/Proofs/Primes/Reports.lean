import Parley.Primes.Tally
import Parley.Proofs.Network.Encode
import Parley.Proofs.Primes.Ranges

/-!
# What workers report

A worker that knows batch and limit finds all primes of each range. What it reports is read back by
the tally: a report that can be sent at all is short enough for its encoding to count.

* `Primes.setInit_init` — a worker knows batch and limit once it has the data for all jobs;
* `Primes.compute_eq` — what comes of a job;
* `Primes.enlists_of_jobDone` — the coordinator reads the primes of the range from the report.
-/

namespace Parley

namespace Primes

open Wire

/-- The primes of range `k`. -/
def SearchParams.primesOf (p : SearchParams) (k : Nat) : Finset Nat :=
  (p.span (p.start k)).filter Nat.Prime

/-- A result is read as the list of the numbers of a set. -/
def Enlists (e : Encoding) (s : Finset Nat) (data : Option Bytes) : Prop :=
  ∃ bs ps, data = some bs ∧ e.unpack .full (.list (.uint .w64)) bs = .ok ps ∧ Enumerates ps s

/-! ## Batch and limit -/

theorem SearchParams.sound : Record.Sound SearchParams.fields := ⟨by decide, by decide, by decide⟩

theorem packRecord_init (e : Encoding) (p : SearchParams) (g : UInt64) :
    e.packRecord .full SearchParams.fields p.toFields = .ok ((ranges e p).init g) := by
  cases e <;> rfl

/-- Whatever a worker knew before, it knows batch and limit after it was told. -/
theorem setInit_init (e : Encoding) (p known : SearchParams) (g : UInt64) :
    (search e).setInit ((ranges e p).init g) known = (p, none) := by
  have hback : e.unpackRecord .full SearchParams.fields ((ranges e p).init g) =
      .ok p.toFields :=
    Encoding.unpackRecord_of_fits SearchParams.sound (packRecord_init e p g)
      fun _ _ => ⟨trivial, trivial, trivial⟩
  simp only [search, hback]
  rfl

/-! ## The primes of a range -/

theorem exists_outcome (e : Encoding) (primes : List UInt64) :
    ∃ bs, e.pack .full (.list (.uint .w64)) primes = .ok bs ∧
      outcome e primes = .done ⟨!primes.isEmpty, bs⟩ := by
  cases e <;> exact ⟨_, rfl, rfl⟩

/-- A worker finds the primes of a range, and calls the result correct if there are any. -/
theorem compute_eq (e : Encoding) {p : SearchParams} (hlimit : p.limit.toNat ≤ lastSquare)
    {j : Job} {k : Nat} (hdata : j.data = rangeJob e (p.start k)) :
    ∃ ps bs, Enumerates ps (p.primesOf k) ∧ e.pack .full (.list (.uint .w64)) ps = .ok bs ∧
      (search e).compute p j = .done ⟨!ps.isEmpty, bs⟩ := by
  have hstop : (p.stop (p.start k)).toNat ≤ lastSquare := by
    rw [p.toNat_stop]
    exact Nat.le_trans (Nat.min_le_right _ _) hlimit
  obtain ⟨ps, hps, henum⟩ := primesIn_enumerates (p.start k) hstop
  obtain ⟨bs, hpack, houtcome⟩ := exists_outcome e ps
  refine ⟨ps, bs, henum, hpack, ?_⟩
  show searchRange e p j = _
  rw [searchRange, hdata, unpack_rangeJob]
  simp only [hps, houtcome]

/-! ## Reports -/

/-- What is sent as a report can be counted by the encoding. -/
theorem length_lt_of_jobDone {net net' : Network} {id : JobId} {o : JobOutcome}
    (h : Worker.jobDone net id o = .ok net') :
    ∀ limit ∈ net.config.encoding.countLimit?, o.result.length < limit := by
  intro limit hlimit
  unfold Worker.jobDone Worker.tell Network.sendToServer at h
  cases hremote : net.remoteAddress with
  | none => simp [hremote] at h
  | some a =>
    simp only [hremote] at h
    obtain ⟨bytes, hencode, -⟩ := Network.send_ok h
    obtain ⟨payload, hpack, hlength⟩ := Network.pack_of_encode hencode
    have hfits := Encoding.fits_of_packRecord GridMessage.sound.plain hpack hlimit
      (Nat.lt_of_lt_of_le hlength (Encoding.wordCount_le_countLimit hlimit))
    exact hfits.2.2.1.1

/-- What is reported for a range is read as its primes. -/
theorem enlists_of_jobDone {e : Encoding} {p : SearchParams}
    (hlimit : p.limit.toNat ≤ lastSquare) {j : Job} {k : Nat}
    (hdata : j.data = rangeJob e (p.start k)) {o : JobOutcome}
    (hdone : (search e).compute p j = .done o) {net net' : Network} {id : JobId}
    (hencoding : net.config.encoding = e) (hsent : Worker.jobDone net id o = .ok net') :
    Enlists e (p.primesOf k) (some o.result) := by
  obtain ⟨ps, bs, henum, hpack, hcompute⟩ := compute_eq e hlimit hdata
  cases hcompute.symm.trans hdone
  refine ⟨bs, ps, rfl, ?_, henum⟩
  refine Encoding.unpack_pack rfl hpack ?_
  intro limit hmem
  -- as a field of the report the result is a list of bytes, and no longer than can be counted
  have hlength := length_lt_of_jobDone hsent limit (hencoding.symm ▸ hmem)
  exact Encoding.fits_of_pack rfl hpack hmem hlength

end Primes

end Parley
