import Mathlib.Data.Finset.Card
import Mathlib.Data.List.Nodup
import Parley.Primes.Tally
import Parley.Proofs.Grid.Accounting

/-!
# When the tally signals the end

An event counts if it is about one of the ranges and what was reported can be read. The tally
signals when as many events have counted as there are ranges, so one result that cannot be read
keeps it from ever signalling, although its range is not searched again.

* `Tally.Taken`, `Tally.taken_take` — everything that one event can do;
* `Tally.finished_hear`, `Tally.signals_hear` — what any number of events leave behind;
* `Tally.signalled_iff` — when the end is signalled, if all ranges are heard of once.
-/

namespace Parley

namespace Primes

open Wire

namespace Tally

/-- Whether what is reported can be read. -/
def reads (t : Tally) : JobEvent → Bool
  | .reported _ _ data => (t.primesOf data).isOk
  | .givenUp _ => true

/-- Whether an event counts. -/
def counts (t : Tally) (event : JobEvent) : Bool :=
  t.covers event.job && t.reads event

/-- The tally after events one after another. -/
def hear (t : Tally) (es : List JobEvent) : Tally :=
  es.foldl take t

theorem hear_snoc (t : Tally) (es : List JobEvent) (event : JobEvent) :
    t.hear (es ++ [event]) = (t.hear es).take event := by
  simp [hear]

/-! ## One event -/

/-- Everything that one event can do to a tally. -/
inductive Taken (t : Tally) : JobEvent → Tally → Prop
  /-- Nothing is counted. -/
  | passed {event : JobEvent} (journal : List Notice) (out : t.counts event = false) :
      Taken t event { t with journal := journal }
  | searched {job : JobId} {correct : Bool} {data : Option Bytes} {primes : List UInt64}
      (covered : t.covers job = true) (read : t.primesOf data = .ok primes) :
      Taken t (.reported job correct data) (t.count primes)
  | failed {job : JobId} (journal : List Notice) (covered : t.covers job = true) :
      Taken t (.givenUp job)
        (checkDone { t with failed := t.failed + 1, journal := journal })

theorem taken_take (t : Tally) (event : JobEvent) : Taken t event (t.take event) := by
  cases event with
  | reported job correct data =>
    show Taken t _ (t.result job data)
    unfold result
    by_cases hcovers : t.covers job = true
    · rw [if_pos hcovers]
      cases hread : t.primesOf data with
      | ok primes => exact .searched hcovers hread
      | error cause =>
        apply Taken.passed
        simp [counts, reads, hread, Except.isOk, Except.toBool]
    · rw [if_neg hcovers]
      apply Taken.passed t.journal
      simp [counts, JobEvent.job, hcovers]
  | givenUp job =>
    show Taken t _ (t.givenUp job)
    unfold givenUp
    by_cases hcovers : t.covers job = true
    · rw [if_pos hcovers]
      exact .failed _ hcovers
    · rw [if_neg hcovers]
      apply Taken.passed t.journal
      simp [counts, JobEvent.job, hcovers]

/-- Looking for the end changes the number of signals only. -/
theorem checkDone_eq (t : Tally) :
    t.checkDone =
      { t with signals := t.signals + if t.finished = t.needed.toNat then 1 else 0 } := by
  unfold checkDone
  split <;> rfl

/-- Which events count does not change. -/
theorem counts_of_same {t t' : Tally} (hencoding : t'.encoding = t.encoding)
    (hneeded : t'.needed = t.needed) : t'.counts = t.counts := by
  funext event
  cases event with
  | reported job correct data =>
    cases data <;> simp [counts, reads, covers, primesOf, hencoding, hneeded]
  | givenUp job => simp [counts, reads, covers, hneeded]

/-- One event counts or it does not, and the end is signalled when the last range is through. -/
theorem take_eq (t : Tally) (event : JobEvent) :
    (t.take event).encoding = t.encoding ∧ (t.take event).needed = t.needed ∧
      (t.take event).finished = t.finished + (if t.counts event then 1 else 0) ∧
      (t.take event).signals = t.signals +
        if t.counts event then (if t.finished + 1 = t.needed.toNat then 1 else 0) else 0 := by
  generalize hafter : t.take event = after
  have htaken : Taken t event after := hafter ▸ t.taken_take event
  cases htaken with
  | passed journal out => simp [out, finished]
  | @searched job correct data primes covered read =>
    have hcounts : t.counts (.reported job correct data) = true := by
      simp [counts, reads, JobEvent.job, covered, read, Except.isOk, Except.toBool]
    rw [count, checkDone_eq, if_pos hcounts, if_pos hcounts]
    refine ⟨rfl, rfl, Nat.add_right_comm _ _ _, ?_⟩
    show t.signals + (if t.ranges + 1 + t.failed = t.needed.toNat then 1 else 0) = _
    rw [Nat.add_right_comm t.ranges]
    rfl
  | @failed job journal covered =>
    have hcounts : t.counts (.givenUp job) = true := by
      simp [counts, reads, JobEvent.job, covered]
    rw [checkDone_eq, if_pos hcounts, if_pos hcounts]
    exact ⟨rfl, rfl, rfl, rfl⟩

/-! ## Many events -/

theorem hear_same (t : Tally) (es : List JobEvent) :
    (t.hear es).encoding = t.encoding ∧ (t.hear es).needed = t.needed := by
  induction es using List.reverseRecOn with
  | nil => exact ⟨rfl, rfl⟩
  | append_singleton es event ih =>
    obtain ⟨hencoding, hneeded, -, -⟩ := (t.hear es).take_eq event
    rw [hear_snoc]
    exact ⟨hencoding.trans ih.1, hneeded.trans ih.2⟩

theorem counts_hear (t : Tally) (es : List JobEvent) : (t.hear es).counts = t.counts :=
  counts_of_same (t.hear_same es).1 (t.hear_same es).2

/-- As many ranges are through as events have counted. -/
theorem finished_hear (t : Tally) (es : List JobEvent) :
    (t.hear es).finished = t.finished + es.countP t.counts := by
  induction es using List.reverseRecOn with
  | nil => rfl
  | append_singleton es event ih =>
    obtain ⟨-, -, hfinished, -⟩ := (t.hear es).take_eq event
    rw [hear_snoc, hfinished, ih, counts_hear, List.countP_append, List.countP_singleton,
      Nat.add_assoc]

/-- The end is signalled once, when as many events have counted as there are ranges. -/
theorem signals_hear (e : Encoding) {needed : UInt64} (hneeded : 0 < needed.toNat)
    (es : List JobEvent) :
    ((new e needed).hear es).signals =
      if needed.toNat ≤ es.countP (new e needed).counts then 1 else 0 := by
  induction es using List.reverseRecOn with
  | nil =>
    rw [List.countP_nil, if_neg (Nat.not_le.mpr hneeded)]
    rfl
  | append_singleton es event ih =>
    obtain ⟨-, -, -, hsignals⟩ := ((new e needed).hear es).take_eq event
    have hfinished : ((new e needed).hear es).finished =
        es.countP (new e needed).counts := by
      rw [finished_hear]
      exact Nat.zero_add _
    have hsame : ((new e needed).hear es).needed = needed := (hear_same _ es).2
    rw [hear_snoc, hsignals, ih, counts_hear, hfinished, hsame, List.countP_append,
      List.countP_singleton]
    by_cases hcounts : (new e needed).counts event = true
    · simp only [hcounts, if_true]
      split <;> split <;> split <;> omega
    · simp only [hcounts, if_false, Nat.add_zero, Bool.false_eq_true]

/-! ## When all ranges are heard of -/

/-- The ranges that events are about are as many as there are, or as there are ids for. -/
theorem countP_covers {t : Tally} {es : List JobEvent}
    (once : ∀ id : JobId, id.toNat < t.needed.toNat → (es.map JobEvent.job).count id = 1) :
    es.countP (fun event => t.covers event.job) = min t.needed.toNat Coordinator.idCount := by
  have hnodup : (((es.map JobEvent.job).filter t.covers).map UInt32.toNat).Nodup := by
    refine List.Nodup.map_on (fun id _ other _ h => UInt32.toNat_inj.mp h) ?_
    rw [List.nodup_iff_count_le_one]
    intro id
    by_cases hid : t.covers id = true
    · rw [List.count_filter hid, once id (of_decide_eq_true hid)]
    · rw [List.count_eq_zero_of_not_mem]
      · exact Nat.zero_le 1
      · intro hmem
        exact hid (List.mem_filter.mp hmem).2
  have hset : (((es.map JobEvent.job).filter t.covers).map UInt32.toNat).toFinset =
      Finset.range (min t.needed.toNat Coordinator.idCount) := by
    ext k
    rw [List.mem_toFinset, List.mem_map, Finset.mem_range, Nat.lt_min]
    constructor
    · rintro ⟨id, hmem, rfl⟩
      exact ⟨of_decide_eq_true (List.mem_filter.mp hmem).2, id.toNat_lt⟩
    · rintro ⟨hk, hcount⟩
      have hid : (UInt32.ofNat k).toNat = k := UInt32.toNat_ofNat_of_lt' hcount
      have hcovers : t.covers (UInt32.ofNat k) = true := decide_eq_true (hid.symm ▸ hk)
      have hmem : UInt32.ofNat k ∈ es.map JobEvent.job := by
        rw [← List.count_pos_iff, once _ (of_decide_eq_true hcovers)]
        exact Nat.one_pos
      exact ⟨UInt32.ofNat k, List.mem_filter.mpr ⟨hmem, hcovers⟩, hid⟩
  have hcard := List.toFinset_card_of_nodup hnodup
  rw [hset, Finset.card_range, List.length_map, ← List.countP_eq_length_filter,
    List.countP_map] at hcard
  exact hcard.symm

/-- If all ranges are heard of once, the end is signalled exactly if there are ids for all of them
and everything that is reported about them can be read; then it is signalled once, by the last event
about a range. -/
theorem signalled_iff (e : Encoding) {needed : UInt64} (hneeded : 0 < needed)
    {es front back : List JobEvent}
    (once : ∀ id : JobId, id.toNat < needed.toNat → (es.map JobEvent.job).count id = 1)
    (hsplit : es = front ++ back) :
    let start := new e needed
    let t := start.hear front
    t.signals ≤ 1 ∧
      (t.signals = 1 ↔
        needed.toNat ≤ Coordinator.idCount ∧
          (∀ event ∈ es, start.covers event.job = true → start.reads event = true) ∧
          ∀ event ∈ back, start.covers event.job = false) ∧
      (t.signals = 1 → t.finished = needed.toNat) := by
  intro start t
  have hpos : 0 < needed.toNat := UInt64.lt_iff_toNat_lt.mp hneeded
  have hsignals : t.signals = if needed.toNat ≤ front.countP start.counts then 1 else 0 :=
    signals_hear e hpos front
  have hfinished : t.finished = front.countP start.counts := by
    rw [finished_hear]
    exact Nat.zero_add _
  have hall : es.countP (fun event => start.covers event.job) =
      min needed.toNat Coordinator.idCount := countP_covers once
  -- an event about a range counts, or else it cannot be read
  let unread (event : JobEvent) : Bool := start.covers event.job && !start.reads event
  have hparts : ∀ l : List JobEvent, (l.countP fun event => start.covers event.job) =
      l.countP start.counts + l.countP unread := by
    intro l
    rw [List.countP_eq_countP_filter_add l _ start.reads, List.countP_filter, List.countP_filter]
    rfl
  have hread : (∀ event ∈ es, start.covers event.job = true → start.reads event = true) ↔
      es.countP unread = 0 := by
    rw [List.countP_eq_zero]
    simp [unread]
  have hlate : (∀ event ∈ back, start.covers event.job = false) ↔
      (back.countP fun event => start.covers event.job) = 0 := by
    rw [List.countP_eq_zero]
    simp
  have hone : t.signals = 1 ↔ needed.toNat ≤ front.countP start.counts := by
    rw [hsignals]
    split <;> simp_all
  have hfront := hparts front
  have hback := hparts back
  rw [hsplit, List.countP_append] at hall
  refine ⟨?_, ?_, ?_⟩
  · rw [hsignals]
    split <;> omega
  · rw [hone, hread, hlate, hsplit, List.countP_append]
    omega
  · intro h
    have hle := hone.mp h
    omega

/-- Two ranges, one of them given up; a job behind them plays no role. -/
theorem signalled_after_failure :
    let es : List JobEvent := [.givenUp 1, .reported 5 true none]
    let rest : List JobEvent := [.reported 0 false none]
    let start := new .json 2
    (0 : UInt64) < 2 ∧
      (∀ id : JobId, id.toNat < (2 : UInt64).toNat →
        ((es ++ rest).map JobEvent.job).count id = 1) ∧
      (start.hear es).signals ≤ 1 ∧
      ((start.hear es).signals = 1 ↔
        (2 : UInt64).toNat ≤ Coordinator.idCount ∧
          (∀ event ∈ es ++ rest, start.covers event.job = true → start.reads event = true) ∧
          ∀ event ∈ rest, start.covers event.job = false) ∧
      ((start.hear es).signals = 1 → (start.hear es).finished = (2 : UInt64).toNat) := by
  intro es rest start
  have once : ∀ id : JobId, id.toNat < (2 : UInt64).toNat →
      ((es ++ rest).map JobEvent.job).count id = 1 := by
    intro id hid
    have hid' : id = 0 ∨ id = 1 := by
      rw [← UInt32.toNat_inj, ← UInt32.toNat_inj]
      show id.toNat = 0 ∨ id.toNat = 1
      have hlt : id.toNat < 2 := hid
      omega
    rcases hid' with rfl | rfl <;> decide
  exact ⟨by decide, once, signalled_iff .json (by decide) once rfl⟩

/-- The only range is heard of, but with a result that cannot be read: no end is signalled. -/
theorem unread_result_never_signals :
    let es : List JobEvent := [.reported 0 true (some [0xff])]
    (∀ id : JobId, id.toNat < (1 : UInt64).toNat → (es.map JobEvent.job).count id = 1) ∧
      ((new .bincode 1).hear es).signals = 0 ∧ ((new .bincode 1).hear es).finished = 0 := by
  refine ⟨?_, by decide, by decide⟩
  intro id hid
  have hid' : id = 0 := by
    rw [← UInt32.toNat_inj]
    exact Nat.lt_one_iff.mp hid
  rw [hid']
  decide

end Tally

end Primes

end Parley
