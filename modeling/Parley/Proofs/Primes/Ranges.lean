import Mathlib.Algebra.Order.Floor.Div
import Mathlib.Data.Finset.Union
import Parley.Primes.Search
import Parley.Proofs.Grid.Jobs
import Parley.Proofs.Primes.Trial
import Parley.Proofs.Wire.Encoding

/-!
# How the ranges lie

Range `k` begins at `k` times the batch, as long as that number fits 64 bits and is below the limit.
The source counts in 64 bits, and goes on after the last range: for a while all further ranges are
empty, but then the count wraps around and numbers are searched once more.

* `Primes.job_ranges`, `Primes.unpack_rangeJob` — what the source makes, and what is read from it;
* `SearchParams.mem_span_iff` — which range a number is in;
* `Primes.ranges_planned` — the plan of a search, for every limit and batch.
-/

namespace Parley

namespace Primes

open Wire

/-! ## The words of the source -/

theorem toNat_min (a b : UInt64) : (min a b).toNat = min a.toNat b.toNat := by
  show (if a ≤ b then a else b).toNat = _
  by_cases h : a ≤ b
  · rw [if_pos h, Nat.min_eq_left (UInt64.le_iff_toNat_le.mp h)]
  · have h' : b.toNat ≤ a.toNat := Nat.le_of_not_le (mt UInt64.le_iff_toNat_le.mpr h)
    rw [if_neg h, Nat.min_eq_right h']

theorem pack_rangeJob (e : Encoding) (start : UInt64) :
    e.pack .full (.uint .w64) start = .ok (rangeJob e start) := by
  cases e <;> rfl

/-- A worker reads the start of a range from its job. -/
theorem unpack_rangeJob (e : Encoding) (start : UInt64) :
    e.unpack .full (.uint .w64) (rangeJob e start) = .ok start :=
  Encoding.unpack_pack rfl (pack_rangeJob e start) fun _ _ => trivial

namespace SearchParams

/-- Where range `k` starts. The source counts in 64 bits, and stays at the limit. -/
def start (p : SearchParams) (k : Nat) : UInt64 :=
  min (UInt64.ofNat (k * p.batch.toNat)) p.limit

/-- The numbers that a worker looks at for a range. -/
def span (p : SearchParams) (start : UInt64) : Finset Nat :=
  Finset.Ico start.toNat (p.stop start).toNat

/-- The number of ranges that it takes. -/
def needed (p : SearchParams) : Nat :=
  p.limit.toNat ⌈/⌉ p.batch.toNat

/-- The number of ranges as it is computed, in words that wrap around. -/
def roundedUp (p : SearchParams) : UInt64 :=
  (p.limit + p.batch - 1) / p.batch

theorem toNat_start (p : SearchParams) (k : Nat) :
    (p.start k).toNat = min (k * p.batch.toNat % 18446744073709551616) p.limit.toNat := by
  rw [start, toNat_min, UInt64.toNat_ofNat']

/-- The end of a range does not feel that the sum stays at the last number. -/
theorem toNat_stop (p : SearchParams) (start : UInt64) :
    (p.stop start).toNat = min (start.toNat + p.batch.toNat) p.limit.toNat := by
  have hbatch := p.batch.toNat_lt
  have hlimit := p.limit.toNat_lt
  have hroom : (18446744073709551615 - p.batch).toNat = 18446744073709551615 - p.batch.toNat := by
    rw [UInt64.toNat_sub_of_le]
    · rfl
    · rw [UInt64.le_iff_toNat_le]
      show p.batch.toNat ≤ 18446744073709551615
      omega
  rw [stop, toNat_min]
  by_cases h : start ≤ 18446744073709551615 - p.batch
  · rw [if_pos h]
    rw [UInt64.le_iff_toNat_le, hroom] at h
    rw [UInt64.toNat_add, Nat.mod_eq_of_lt (by omega)]
  · rw [if_neg h]
    rw [UInt64.le_iff_toNat_le, hroom] at h
    show min 18446744073709551615 p.limit.toNat = _
    omega

theorem needed_le_iff {p : SearchParams} (hbatch : 0 < p.batch.toNat) {k : Nat} :
    p.needed ≤ k ↔ p.limit.toNat ≤ k * p.batch.toNat := by
  rw [needed, ceilDiv_le_iff_le_mul hbatch, Nat.mul_comm]

theorem lt_needed_iff {p : SearchParams} (hbatch : 0 < p.batch.toNat) {k : Nat} :
    k < p.needed ↔ k * p.batch.toNat < p.limit.toNat := by
  rw [← Nat.not_le, needed_le_iff hbatch, Nat.not_le]

/-- Up to the last range the count fits. -/
theorem toNat_start_of_lt {p : SearchParams} (hbatch : 0 < p.batch.toNat) {k : Nat}
    (hk : k < p.needed) : (p.start k).toNat = k * p.batch.toNat := by
  have hlt := (lt_needed_iff hbatch).mp hk
  have hlimit := p.limit.toNat_lt
  rw [toNat_start, Nat.mod_eq_of_lt (by omega), Nat.min_eq_left (Nat.le_of_lt hlt)]

/-- A number is in the range that its quotient by the batch tells. -/
theorem mem_span_iff {p : SearchParams} (hbatch : 0 < p.batch.toNat) {k : Nat}
    (hk : k < p.needed) (n : Nat) :
    n ∈ p.span (p.start k) ↔ n < p.limit.toNat ∧ n / p.batch.toNat = k := by
  rw [span, Finset.mem_Ico, toNat_stop, toNat_start_of_lt hbatch hk, Nat.lt_min,
    Nat.div_eq_iff hbatch]
  omega

/-- Ranges have no number in common. -/
theorem disjoint_span {p : SearchParams} (hbatch : 0 < p.batch.toNat) {j k : Nat}
    (hj : j < p.needed) (hk : k < p.needed) (hne : j ≠ k) :
    Disjoint (p.span (p.start j)) (p.span (p.start k)) := by
  rw [Finset.disjoint_left]
  intro n hn hn'
  rw [mem_span_iff hbatch hj] at hn
  rw [mem_span_iff hbatch hk] at hn'
  exact hne (hn.2.symm.trans hn'.2)

/-- What is in some of the ranges. -/
theorem mem_biUnion_span {p : SearchParams} (hbatch : 0 < p.batch.toNat) {s : Finset Nat}
    (hs : s ⊆ Finset.range p.needed) {n : Nat} :
    n ∈ s.biUnion (fun k => p.span (p.start k)) ↔
      n < p.limit.toNat ∧ n / p.batch.toNat ∈ s := by
  rw [Finset.mem_biUnion]
  constructor
  · rintro ⟨k, hk, hn⟩
    obtain ⟨hlt, rfl⟩ := (mem_span_iff hbatch (Finset.mem_range.mp (hs hk)) n).mp hn
    exact ⟨hlt, hk⟩
  · rintro ⟨hlt, hk⟩
    exact ⟨_, hk, (mem_span_iff hbatch (Finset.mem_range.mp (hs hk)) n).mpr ⟨hlt, rfl⟩⟩

theorem start_eq_limit_iff (p : SearchParams) (k : Nat) :
    p.start k = p.limit ↔ p.limit.toNat ≤ k * p.batch.toNat % 18446744073709551616 := by
  rw [← UInt64.toNat_inj, toNat_start, min_eq_right_iff]

theorem span_nonempty_iff {p : SearchParams} (hbatch : 0 < p.batch.toNat) (k : Nat) :
    (p.span (p.start k)).Nonempty ↔ k * p.batch.toNat % 18446744073709551616 < p.limit.toNat := by
  rw [span, Finset.nonempty_Ico, toNat_stop, toNat_start]
  omega

end SearchParams

/-- The source counts from zero in steps of a batch. -/
theorem after_ranges (e : Encoding) (p : SearchParams) (k : Nat) :
    (ranges e p).after 0 k = UInt64.ofNat (k * p.batch.toNat) := by
  induction k with
  | zero => simp [JobSource.after]
  | succ k ih =>
    show (ranges e p).after 0 k + p.batch = _
    rw [ih, Nat.succ_mul, UInt64.ofNat_add, UInt64.ofNat_toNat]

theorem job_ranges (e : Encoding) (p : SearchParams) (k : Nat) :
    (ranges e p).job 0 k = rangeJob e (p.start k) := by
  show rangeJob e (min ((ranges e p).after 0 k) p.limit) = _
  rw [after_ranges]
  rfl

/-- The sum that rounds up is right as long as what is divided fits. -/
theorem SearchParams.toNat_roundedUp {p : SearchParams} (hbatch : 0 < p.batch.toNat)
    (h : p.limit.toNat + p.batch.toNat - 1 < 18446744073709551616) :
    p.roundedUp.toNat = p.needed := by
  have hsub : (p.limit + p.batch - 1).toNat = p.limit.toNat + p.batch.toNat - 1 := by
    rw [UInt64.toNat_sub, UInt64.toNat_add]
    show (2 ^ 64 - 1 + (p.limit.toNat + p.batch.toNat) % 2 ^ 64) % 2 ^ 64 = _
    omega
  rw [roundedUp, UInt64.toNat_div, hsub, needed, Nat.ceilDiv_eq_add_pred_div]

/-! ## The plan -/

/-- How the ranges of a search lie, and what the source makes behind the last of them. -/
structure Planned (e : Encoding) (p : SearchParams) : Prop where
  /-- The number of ranges is computed exactly if the sum that rounds up fits, and is right then. -/
  count : (rangesNeeded p).map UInt64.toNat =
    if p.limit.toNat + p.batch.toNat < 18446744073709551616 then some p.needed else none
  /-- Every job is read as the start of its range. -/
  starts : ∀ count, ((ranges e p).take count 0).map (e.unpack .full (.uint .w64)) =
    (List.range count).map fun k => .ok (p.start k)
  multiples : ∀ k < p.needed, (p.start k).toNat = k * p.batch.toNat
  nonempty : ∀ k < p.needed, (p.span (p.start k)).Nonempty
  disjoint : ∀ j < p.needed, ∀ k < p.needed, j ≠ k →
    Disjoint (p.span (p.start j)) (p.span (p.start k))
  cover : (Finset.range p.needed).biUnion (fun k => p.span (p.start k)) =
    Finset.range p.limit.toNat
  /-- Behind the last range there is nothing to search, unless the count has come round to a number
  below the limit. -/
  surplus : ∀ k, p.needed ≤ k →
    (p.start k = p.limit ↔ p.limit.toNat ≤ k * p.batch.toNat % 18446744073709551616) ∧
      (p.span (p.start k) = ∅ ↔ p.start k = p.limit)
  /-- It does come round. -/
  again : ∃ k, p.needed ≤ k ∧ (p.span (p.start k)).Nonempty

/-- The plan of a search, for every limit and batch that are not zero. -/
theorem ranges_planned (e : Encoding) (p : SearchParams) (hlimit : 0 < p.limit)
    (hbatch : 0 < p.batch) : Planned e p := by
  have hlimit' : 0 < p.limit.toNat := UInt64.lt_iff_toNat_lt.mp hlimit
  have hbatch' : 0 < p.batch.toNat := UInt64.lt_iff_toNat_lt.mp hbatch
  refine ⟨?_, ?_, ?_, ?_, ?_, ?_, ?_, ?_⟩
  · unfold rangesNeeded
    by_cases h : p.limit.toNat + p.batch.toNat < 18446744073709551616
    · rw [if_pos h, if_pos h, Option.map_some, ← p.toNat_roundedUp hbatch' (by omega)]
      rfl
    · rw [if_neg h, if_neg h]
      rfl
  · intro count
    rw [JobSource.take_eq, List.map_map]
    apply List.map_congr_left
    intro k _
    rw [Function.comp_apply, job_ranges, unpack_rangeJob]
  · intro k hk
    exact p.toNat_start_of_lt hbatch' hk
  · intro k hk
    have hlt := (p.lt_needed_iff hbatch').mp hk
    have hfits := p.limit.toNat_lt
    rw [p.span_nonempty_iff hbatch', Nat.mod_eq_of_lt (by omega)]
    exact hlt
  · intro j hj k hk hne
    exact p.disjoint_span hbatch' hj hk hne
  · ext n
    rw [p.mem_biUnion_span hbatch' (Finset.Subset.refl _), Finset.mem_range, Finset.mem_range,
      p.lt_needed_iff hbatch', and_iff_left_iff_imp]
    intro hn
    exact Nat.lt_of_le_of_lt (Nat.div_mul_le_self _ _) hn
  · intro k _
    refine ⟨p.start_eq_limit_iff k, ?_⟩
    rw [← Finset.not_nonempty_iff_eq_empty, p.span_nonempty_iff hbatch', Nat.not_lt,
      p.start_eq_limit_iff]
  · -- the count is back at zero after as many jobs as there are words
    refine ⟨18446744073709551616, ?_, ?_⟩
    · rw [p.needed_le_iff hbatch']
      have hfits := p.limit.toNat_lt
      have hmul := Nat.le_mul_of_pos_right 18446744073709551616 hbatch'
      omega
    · rw [p.span_nonempty_iff hbatch', Nat.mul_mod_right]
      exact hlimit'

/-- Twenty-five numbers in ranges of ten. -/
theorem planned_twenty_five :
    (0 : UInt64) < 25 ∧ (0 : UInt64) < 10 ∧ Planned .json ⟨10, 25⟩ :=
  ⟨by decide, by decide, ranges_planned .json ⟨10, 25⟩ (by decide) (by decide)⟩

/-- A limit that is accepted, but too high for the sum that rounds up; and a search of one range
whose third job is that range once more, since two batches wrap around to nothing. -/
theorem range_comes_again :
    rangesNeeded ⟨1, 18446744073709551615⟩ = none ∧
      let p : SearchParams := ⟨9223372036854775808, 1⟩
      rangesNeeded p = some 1 ∧
        ((ranges .bincode p).take 3 0).map (Encoding.bincode.unpack .full (.uint .w64)) =
          [.ok 0, .ok 1, .ok 0] ∧
        p.span 0 = {0} ∧ (0 : UInt64) ≠ p.limit := by
  decide

end Primes

end Parley
