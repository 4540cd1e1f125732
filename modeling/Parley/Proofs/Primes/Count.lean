import Mathlib.Data.Finset.Lattice.Union
import Parley.Proofs.Primes.Reports
import Parley.Proofs.Primes.Tally

/-!
# What the tally counts

If no range is heard of twice, and what is reported of a range are its primes, then the tally has the
number of the ranges that were searched, that of the ranges that were given up, and number and
greatest of the primes of the ranges that were searched.

* `Tally.Counted.take` — one event;
* `Tally.counted_hear` — any number of events;
* `Tally.Counted.complete` — when the end is signalled all ranges are accounted for.
-/

namespace Parley

namespace Primes

/-- The primes of some ranges. -/
def SearchParams.found (p : SearchParams) (s : Finset Nat) : Finset Nat :=
  s.biUnion p.primesOf

theorem SearchParams.found_eq (p : SearchParams) (s : Finset Nat) :
    p.found s = (s.biUnion fun k => p.span (p.start k)).filter Nat.Prime :=
  (Finset.filter_biUnion s _ Nat.Prime).symm

theorem SearchParams.found_insert (p : SearchParams) (k : Nat) (s : Finset Nat) :
    p.found (insert k s) = p.primesOf k ∪ p.found s :=
  Finset.biUnion_insert

/-- A range has no prime in common with others. -/
theorem SearchParams.disjoint_found {p : SearchParams} (hbatch : 0 < p.batch.toNat) {k : Nat}
    {s : Finset Nat} (hk : k < p.needed) (hs : ∀ i ∈ s, i < p.needed) (hnot : k ∉ s) :
    Disjoint (p.primesOf k) (p.found s) := by
  rw [found, Finset.disjoint_biUnion_right]
  intro i hi
  apply Finset.disjoint_filter_filter
  apply p.disjoint_span hbatch hk (hs i hi)
  rintro rfl
  exact hnot hi

/-- An event that reports a range tells its primes. -/
def Tells (e : Encoding) (p : SearchParams) : JobEvent → Prop
  | .reported job _ data => Enlists e (p.primesOf job.toNat) data
  | .givenUp _ => True

/-- Whether an event reports a result. -/
def isReport : JobEvent → Bool
  | .reported _ _ _ => true
  | .givenUp _ => false

/-- Whether an event gives a job up. -/
def isGivenUp : JobEvent → Bool
  | .reported _ _ _ => false
  | .givenUp _ => true

/-- The ranges that events of some kind are about. -/
def rangesOf (kind : JobEvent → Bool) (p : SearchParams) (es : List JobEvent) : Finset Nat :=
  ((es.filter kind).map fun event => event.job.toNat).toFinset.filter (· < p.needed)

theorem mem_rangesOf {kind : JobEvent → Bool} {p : SearchParams} {es : List JobEvent} {k : Nat} :
    k ∈ rangesOf kind p es ↔
      k < p.needed ∧ ∃ event ∈ es, kind event = true ∧ event.job.toNat = k := by
  simp only [rangesOf, Finset.mem_filter, List.mem_toFinset, List.mem_map, List.mem_filter]
  constructor
  · rintro ⟨⟨event, ⟨hevent, hkind⟩, hjob⟩, hk⟩
    exact ⟨hk, event, hevent, hkind, hjob⟩
  · rintro ⟨hk, event, hevent, hkind, hjob⟩
    exact ⟨⟨event, ⟨hevent, hkind⟩, hjob⟩, hk⟩

theorem rangesOf_snoc (kind : JobEvent → Bool) {p : SearchParams} (es : List JobEvent)
    (event : JobEvent) (hkind : kind event = true) (hlt : event.job.toNat < p.needed) :
    rangesOf kind p (es ++ [event]) = insert event.job.toNat (rangesOf kind p es) := by
  ext k
  rw [Finset.mem_insert, mem_rangesOf, mem_rangesOf]
  constructor
  · rintro ⟨hk, other, hother, hkind', rfl⟩
    rcases List.mem_append.mp hother with hother | hother
    · exact .inr ⟨hk, other, hother, hkind', rfl⟩
    · exact .inl (List.mem_singleton.mp hother ▸ rfl)
  · rintro (rfl | ⟨hk, other, hother, hrest⟩)
    · exact ⟨hlt, event, List.mem_append_right _ List.mem_cons_self, hkind, rfl⟩
    · exact ⟨hk, other, List.mem_append_left _ hother, hrest⟩

/-- An event of another kind, or about a job behind the last range. -/
theorem rangesOf_snoc_of_not (kind : JobEvent → Bool) {p : SearchParams} (es : List JobEvent)
    {event : JobEvent} (h : kind event = true → ¬ event.job.toNat < p.needed) :
    rangesOf kind p (es ++ [event]) = rangesOf kind p es := by
  ext k
  rw [mem_rangesOf, mem_rangesOf]
  constructor
  · rintro ⟨hk, other, hother, hkind, rfl⟩
    rcases List.mem_append.mp hother with hother | hother
    · exact ⟨hk, other, hother, hkind, rfl⟩
    · rw [List.mem_singleton.mp hother] at hk hkind
      exact absurd hk (h hkind)
  · rintro ⟨hk, other, hother, hrest⟩
    exact ⟨hk, other, List.mem_append_left _ hother, hrest⟩

/-- A job that was not heard of is not in any of the ranges. -/
theorem not_mem_rangesOf (kind : JobEvent → Bool) (p : SearchParams) {es : List JobEvent}
    {id : JobId} (h : ∀ event ∈ es, event.job ≠ id) : id.toNat ∉ rangesOf kind p es := by
  intro hmem
  obtain ⟨-, event, hevent, -, heq⟩ := mem_rangesOf.mp hmem
  exact h event hevent (UInt32.toNat_inj.mp heq)

namespace Tally

/-- The tally has counted these ranges. -/
structure Counted (p : SearchParams) (t : Tally) (searched failed : Finset Nat) : Prop where
  ranges : t.ranges = searched.card
  failures : t.failed = failed.card
  primes : t.primes = (p.found searched).card
  largest : t.largest.toNat = (p.found searched).sup id

theorem counted_new (e : Encoding) (p : SearchParams) (needed : UInt64) :
    Counted p (new e needed) ∅ ∅ :=
  ⟨rfl, rfl, rfl, rfl⟩

/-- One more range was searched. -/
theorem Counted.of_searched {p : SearchParams} (hbatch : 0 < p.batch.toNat) {t : Tally}
    {searched failed : Finset Nat} (h : Counted p t searched failed)
    (hlt : ∀ i ∈ searched, i < p.needed) {k : Nat} (hk : k < p.needed) (hnew : k ∉ searched)
    {primes : List UInt64} (henum : Enumerates primes (p.primesOf k)) :
    Counted p (t.count primes) (insert k searched) failed := by
  have hdisjoint := p.disjoint_found hbatch hk hlt hnew
  rw [count, checkDone_eq]
  refine ⟨?_, h.failures, ?_, ?_⟩
  · rw [Finset.card_insert_of_notMem hnew, ← h.ranges]
  · rw [p.found_insert, Finset.card_union_of_disjoint hdisjoint, ← h.primes, ← henum.length_eq]
    exact Nat.add_comm _ _
  · show (primes.foldl max t.largest).toNat = _
    rw [toNat_foldl_max, henum.2, h.largest, p.found_insert, Finset.sup_union]
    exact max_comm _ _

/-- One more range was given up. -/
theorem Counted.of_failed {p : SearchParams} {t : Tally} {searched failed : Finset Nat}
    (h : Counted p t searched failed) {k : Nat} (hnew : k ∉ failed) (journal : List Notice) :
    Counted p (checkDone { t with failed := t.failed + 1, journal := journal }) searched
      (insert k failed) := by
  rw [checkDone_eq]
  refine ⟨h.ranges, ?_, h.primes, h.largest⟩
  rw [Finset.card_insert_of_notMem hnew, ← h.failures]

/-- What tells the primes of a range can be read. -/
theorem reads_of_tells {t : Tally} {p : SearchParams} {event : JobEvent}
    (h : Tells t.encoding p event) : t.reads event = true := by
  cases event with
  | reported job correct data =>
    obtain ⟨bs, ps, rfl, hread, -⟩ := h
    simp [reads, primesOf, hread, Except.isOk, Except.toBool]
  | givenUp job => rfl

/-- One event about a range that was not heard of. -/
theorem Counted.take {p : SearchParams} (hbatch : 0 < p.batch.toNat) {t : Tally}
    (hneeded : t.needed.toNat = p.needed) {es : List JobEvent}
    (h : Counted p t (rangesOf isReport p es) (rangesOf isGivenUp p es)) {event : JobEvent}
    (htells : Tells t.encoding p event) (hnew : ∀ other ∈ es, other.job ≠ event.job) :
    Counted p (t.take event) (rangesOf isReport p (es ++ [event]))
      (rangesOf isGivenUp p (es ++ [event])) := by
  have hcovers : ∀ job : JobId, t.covers job = true ↔ job.toNat < p.needed := by
    intro job
    rw [covers, decide_eq_true_iff, hneeded]
  generalize hafter : t.take event = after
  have htaken : Taken t event after := hafter ▸ t.taken_take event
  cases htaken with
  | passed journal out =>
    -- what is told can be read, so the event is about a job behind the last range
    have hout : ¬ event.job.toNat < p.needed := by
      rw [← hcovers]
      intro hcov
      simp [counts, hcov, reads_of_tells htells] at out
    rw [rangesOf_snoc_of_not isReport es fun _ => hout,
      rangesOf_snoc_of_not isGivenUp es fun _ => hout]
    exact ⟨h.ranges, h.failures, h.primes, h.largest⟩
  | @searched job correct data primes covered read =>
    have hk : job.toNat < p.needed := (hcovers job).mp covered
    obtain ⟨bs, ps, rfl, hread, henum⟩ := htells
    obtain rfl : primes = ps := Except.ok.inj (read.symm.trans hread)
    have hsearched := rangesOf_snoc isReport es (.reported job correct (some bs)) rfl hk
    have hfailed : rangesOf isGivenUp p (es ++ [.reported job correct (some bs)]) =
        rangesOf isGivenUp p es := rangesOf_snoc_of_not _ es (by simp [isGivenUp])
    rw [hsearched, hfailed]
    exact h.of_searched hbatch (fun i hi => (mem_rangesOf.mp hi).1) hk
      (not_mem_rangesOf _ p hnew) henum
  | @failed job journal covered =>
    have hk : job.toNat < p.needed := (hcovers job).mp covered
    have hsearched : rangesOf isReport p (es ++ [.givenUp job]) = rangesOf isReport p es :=
      rangesOf_snoc_of_not _ es (by simp [isReport])
    have hfailed := rangesOf_snoc isGivenUp es (.givenUp job) rfl hk
    rw [hsearched, hfailed]
    exact h.of_failed (not_mem_rangesOf _ p hnew) journal

/-- The tally has counted the ranges that it has heard of. -/
theorem counted_hear (e : Encoding) {p : SearchParams} (hbatch : 0 < p.batch.toNat)
    {needed : UInt64} (hneeded : needed.toNat = p.needed) {es : List JobEvent}
    (hnodup : (es.map JobEvent.job).Nodup) (htells : ∀ event ∈ es, Tells e p event) :
    Counted p ((new e needed).hear es) (rangesOf isReport p es) (rangesOf isGivenUp p es) := by
  induction es using List.reverseRecOn with
  | nil => exact counted_new e p needed
  | append_singleton es event ih =>
    rw [List.map_append, List.map_singleton, List.nodup_append] at hnodup
    obtain ⟨hes, -, hapart⟩ := hnodup
    have hcounted := ih hes fun other hother => htells other (List.mem_append_left _ hother)
    obtain ⟨hencoding, hsame⟩ := (new e needed).hear_same es
    rw [hear_snoc]
    refine hcounted.take hbatch ?_ ?_ ?_
    · rw [hsame]
      exact hneeded
    · rw [hencoding]
      exact htells event (List.mem_append_right _ List.mem_cons_self)
    · intro other hother
      exact hapart _ (List.mem_map_of_mem hother) _ (List.mem_singleton_self _)

/-- When the end is signalled every range was searched or given up, and none of them both. -/
theorem Counted.complete {e : Encoding} {p : SearchParams} (hpos : 0 < p.needed)
    {needed : UInt64} (hneeded : needed.toNat = p.needed) {es : List JobEvent}
    (hnodup : (es.map JobEvent.job).Nodup)
    (h : Counted p ((new e needed).hear es) (rangesOf isReport p es) (rangesOf isGivenUp p es))
    (hdone : 0 < ((new e needed).hear es).signals) :
    rangesOf isReport p es ∪ rangesOf isGivenUp p es = Finset.range p.needed ∧
      Disjoint (rangesOf isReport p es) (rangesOf isGivenUp p es) := by
  have hdisjoint : Disjoint (rangesOf isReport p es) (rangesOf isGivenUp p es) := by
    rw [Finset.disjoint_left]
    intro k hreport hgivenUp
    obtain ⟨-, event, hevent, hkind, rfl⟩ := mem_rangesOf.mp hreport
    obtain ⟨-, other, hother, hkind', heq⟩ := mem_rangesOf.mp hgivenUp
    have hsame : other = event :=
      List.inj_on_of_nodup_map hnodup hother hevent (UInt32.toNat_inj.mp heq)
    subst hsame
    cases other with
    | reported job correct data => cases hkind'
    | givenUp job => cases hkind
  refine ⟨?_, hdisjoint⟩
  have hfinished : p.needed ≤ ((new e needed).hear es).finished := by
    rw [signals_hear e (hneeded ▸ hpos)] at hdone
    rw [finished_hear, ← hneeded]
    by_contra hlt
    rw [if_neg] at hdone
    · exact Nat.lt_irrefl 0 hdone
    · intro hle
      exact hlt (Nat.le_trans hle (Nat.le_add_left _ _))
  apply Finset.eq_of_subset_of_card_le
  · intro k hk
    rw [Finset.mem_range]
    rcases Finset.mem_union.mp hk with hk | hk
    · exact (mem_rangesOf.mp hk).1
    · exact (mem_rangesOf.mp hk).1
  · rw [Finset.card_range, Finset.card_union_of_disjoint hdisjoint, ← h.ranges, ← h.failures]
    exact hfinished

end Tally

end Primes

end Parley
