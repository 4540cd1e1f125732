import Mathlib.Data.Finset.Lattice.Fold
import Mathlib.Data.List.Nodup
import Mathlib.Data.Nat.Prime.Basic
import Mathlib.Order.Interval.Finset.Nat
import Mathlib.Order.Lattice.Nat
import Parley.Primes.Trial

/-!
# Trial division finds the primes

Below the square of the last divisor the loop never runs out of divisors, so every number there is
told to be prime or not, and rightly so. From there on it runs out for the primes.

* `noDivisorFrom_eq` — the loop over odd divisors, for every number;
* `isPrime?_eq_ite`, `isPrime?_eq` — whether a number is prime;
* `primesIn_enumerates` — the list of the primes of a range, each of them once.
-/

namespace Parley

namespace Primes

/-! ## One number -/

/-- The square of the last divisor that is tried. Below it the loop always comes to an end. -/
def lastSquare : Nat := 18446744065119617025

/-- One of the divisors that are tried from `d` on divides `n`. -/
def HasDivisorFrom (n d : Nat) : Prop :=
  ∃ e, d ≤ e ∧ e % 2 = 1 ∧ e * e ≤ n ∧ e ∣ n

theorem toNat_le_of_not_lt {d : UInt64} (h : ¬ lastDivisor < d) : d.toNat ≤ 4294967295 := by
  simpa [lastDivisor, UInt64.lt_iff_toNat_lt] using h

theorem toNat_square {d : UInt64} (h : ¬ lastDivisor < d) : (d * d).toNat = d.toNat * d.toNat := by
  have hd := toNat_le_of_not_lt h
  rw [UInt64.toNat_mul]
  exact Nat.mod_eq_of_lt (Nat.lt_of_le_of_lt (Nat.mul_le_mul hd hd) (by decide))

/-- Even numbers between the divisors need not be tried. -/
theorem hasDivisorFrom_next {n d : Nat} (hodd : d % 2 = 1) (hnot : ¬ d ∣ n) :
    HasDivisorFrom n (d + 2) ↔ HasDivisorFrom n d := by
  constructor
  · rintro ⟨e, hle, hrest⟩
    exact ⟨e, by omega, hrest⟩
  · rintro ⟨e, hle, heodd, hsquare, hdvd⟩
    have hne : e ≠ d := by
      rintro rfl
      exact hnot hdvd
    exact ⟨e, by omega, heodd, hsquare, hdvd⟩

open Classical in
/-- The loop finds a divisor if there is one. If there is none it comes to the root, unless that
needs a divisor whose square does not fit. -/
theorem noDivisorFrom_eq {n d : UInt64} (hodd : d.toNat % 2 = 1)
    (hlast : d.toNat ≤ 4294967295 ∨ lastSquare ≤ n.toNat) :
    noDivisorFrom n d =
      if HasDivisorFrom n.toNat d.toNat then some false
      else if n.toNat < lastSquare then some true else none := by
  fun_induction noDivisorFrom n d with
  | case1 d h =>
    have hd : 4294967295 < d.toNat := by
      simpa [lastDivisor, UInt64.lt_iff_toNat_lt] using h
    -- the square of such a divisor would not fit, so it is above every number
    have hnone : ¬ HasDivisorFrom n.toNat d.toNat := by
      rintro ⟨e, hle, -, hsquare, -⟩
      have hbig : 4294967296 * 4294967296 ≤ e * e :=
        Nat.mul_le_mul (Nat.le_trans hd hle) (Nat.le_trans hd hle)
      have hn := n.toNat_lt
      omega
    rw [if_neg hnone, if_neg (by omega)]
  | case2 d h hlt =>
    rw [UInt64.lt_iff_toNat_lt, toNat_square h] at hlt
    have hd := toNat_le_of_not_lt h
    have hsquare : d.toNat * d.toNat ≤ lastSquare := Nat.mul_le_mul hd hd
    have hnone : ¬ HasDivisorFrom n.toNat d.toNat := by
      rintro ⟨e, hle, -, hle', -⟩
      have := Nat.mul_le_mul hle hle
      omega
    rw [if_neg hnone, if_pos (by omega)]
  | case3 d h hlt hdvd =>
    rw [UInt64.lt_iff_toNat_lt, toNat_square h, Nat.not_lt] at hlt
    have hmod : n.toNat % d.toNat = 0 := by
      rw [← UInt64.toNat_mod, eq_of_beq hdvd]
      rfl
    rw [if_pos ⟨d.toNat, Nat.le_refl _, hodd, hlt, Nat.dvd_of_mod_eq_zero hmod⟩]
  | case4 d h hlt hdvd ih =>
    rw [UInt64.lt_iff_toNat_lt, toNat_square h, Nat.not_lt] at hlt
    have hd := toNat_le_of_not_lt h
    have hnot : ¬ d.toNat ∣ n.toNat := by
      intro hdvd'
      refine hdvd (beq_iff_eq.mpr (UInt64.toNat_inj.mp ?_))
      rw [UInt64.toNat_mod, Nat.mod_eq_zero_of_dvd hdvd']
      rfl
    have hnext := toNat_next h
    -- the last divisor is odd, so it is not skipped
    have hlast' : (d + 2).toNat ≤ 4294967295 ∨ lastSquare ≤ n.toNat := by
      by_cases hl : d.toNat = 4294967295
      · rw [hl] at hlt
        exact .inr hlt
      · exact .inl (by omega)
    rw [ih (by omega) hlast', hnext]
    simp only [hasDivisorFrom_next hodd hnot]

/-- An odd number is prime exactly if none of the odd numbers up to its root divides it. -/
theorem prime_iff_of_odd {n : Nat} (hodd : n % 2 = 1) (hn : 3 ≤ n) :
    n.Prime ↔ ¬ HasDivisorFrom n 3 := by
  constructor
  · rintro hprime ⟨e, hle, -, hsquare, hdvd⟩
    rcases (Nat.dvd_prime hprime).mp hdvd with rfl | rfl
    · omega
    · have := Nat.mul_le_mul_left e hle
      omega
  · intro hnone
    by_contra hnot
    have hne : n ≠ 1 := by omega
    have hfac := Nat.minFac_prime hne
    have hdvd := Nat.minFac_dvd n
    have hoddfac : n.minFac % 2 = 1 := by
      by_contra heven
      have htwo : 2 ∣ n := Nat.dvd_trans (Nat.dvd_of_mod_eq_zero (by omega)) hdvd
      omega
    have hsquare := Nat.minFac_sq_le_self (by omega) hnot
    rw [Nat.pow_two] at hsquare
    have htwo := hfac.two_le
    exact hnone ⟨n.minFac, by omega, hoddfac, hsquare, hdvd⟩

/-- Every number is told to be prime or not, and rightly so, other than a prime from the last square
on, which cannot be told. -/
theorem isPrime?_eq_ite (n : UInt64) :
    isPrime? n =
      if n.toNat.Prime ∧ lastSquare ≤ n.toNat then none else some (decide n.toNat.Prime) := by
  unfold isPrime?
  by_cases hsmall : n < 2
  · rw [if_pos hsmall]
    have hlt : n.toNat < 2 := UInt64.lt_iff_toNat_lt.mp hsmall
    have hnot : ¬ n.toNat.Prime := fun hp => by
      have := hp.two_le
      omega
    rw [if_neg fun h => hnot h.1, decide_eq_false hnot]
  rw [if_neg hsmall]
  have hge : 2 ≤ n.toNat := by
    rw [UInt64.lt_iff_toNat_lt, Nat.not_lt] at hsmall
    exact hsmall
  have hmod : (n % 2 == 0) = decide (n.toNat % 2 = 0) := by
    rw [Bool.eq_iff_iff, beq_iff_eq, decide_eq_true_iff, ← UInt64.toNat_inj, UInt64.toNat_mod]
    rfl
  rw [hmod]
  by_cases heven : n.toNat % 2 = 0
  · rw [if_pos (decide_eq_true heven)]
    have htwo : n.toNat.Prime ↔ n = 2 := by
      rw [← UInt64.toNat_inj]
      constructor
      · intro hp
        exact (hp.eq_two_or_odd).resolve_right (by omega)
      · intro h
        rw [h]
        exact Nat.prime_two
    have hfits : ¬ (n.toNat.Prime ∧ lastSquare ≤ n.toNat) := by
      rintro ⟨hp, hle⟩
      rw [htwo.mp hp] at hle
      exact absurd hle (by decide)
    rw [if_neg hfits]
    simp only [htwo, beq_eq_decide]
  · rw [if_neg (by simpa using heven)]
    have hprime : n.toNat.Prime ↔ ¬ HasDivisorFrom n.toNat (3 : UInt64).toNat :=
      prime_iff_of_odd (by omega) (by omega)
    rw [noDivisorFrom_eq (by decide) (.inl (by decide))]
    by_cases hd : HasDivisorFrom n.toNat (3 : UInt64).toNat
    · have hnot : ¬ n.toNat.Prime := fun hp => hprime.mp hp hd
      rw [if_pos hd, if_neg fun h => hnot h.1, decide_eq_false hnot]
    · have hp := hprime.mpr hd
      rw [if_neg hd, decide_eq_true hp]
      by_cases hlast : n.toNat < lastSquare
      · rw [if_pos hlast, if_neg fun h => Nat.not_le.mpr hlast h.2]
      · rw [if_neg hlast, if_pos ⟨hp, Nat.not_lt.mp hlast⟩]

/-- Below the last square every number is told to be prime or not. -/
theorem isPrime?_eq {n : UInt64} (hn : n.toNat < lastSquare) :
    isPrime? n = some (decide n.toNat.Prime) := by
  rw [isPrime?_eq_ite, if_neg fun h => Nat.not_le.mpr hn h.2]

/-! ## Ranges of numbers -/

/-- The list has the numbers of a set, each of them once. -/
def Enumerates (ps : List UInt64) (s : Finset Nat) : Prop :=
  (ps.map UInt64.toNat).Nodup ∧ (ps.map UInt64.toNat).toFinset = s

theorem Enumerates.length_eq {ps : List UInt64} {s : Finset Nat} (h : Enumerates ps s) :
    ps.length = s.card := by
  rw [← h.2, List.toFinset_card_of_nodup h.1, List.length_map]

theorem toNat_max (a b : UInt64) : (max a b).toNat = max a.toNat b.toNat := by
  show (if a ≤ b then b else a).toNat = _
  by_cases h : a ≤ b
  · rw [if_pos h, Nat.max_eq_right (UInt64.le_iff_toNat_le.mp h)]
  · have h' : b.toNat ≤ a.toNat := Nat.le_of_not_le (mt UInt64.le_iff_toNat_le.mpr h)
    rw [if_neg h, Nat.max_eq_left h']

/-- The greatest of a list and a number in front of it. -/
theorem toNat_foldl_max (l : UInt64) (ps : List UInt64) :
    (ps.foldl max l).toNat = max l.toNat ((ps.map UInt64.toNat).toFinset.sup id) := by
  induction ps generalizing l with
  | nil => simp
  | cons p ps ih => simp [ih, toNat_max, max_assoc]

/-- The primes among the next numbers are put behind those that are there. -/
theorem collect_eq {count : Nat} {n : UInt64} (found : List UInt64)
    (h : ∀ k < count, n.toNat + k < lastSquare) :
    ∃ ps, collect count n found = some (found.reverse ++ ps) ∧
      ps.map UInt64.toNat = (List.range' n.toNat count).filter fun k => k.Prime := by
  induction count generalizing n found with
  | zero => exact ⟨[], by simp [collect], rfl⟩
  | succ count ih =>
    have hn : n.toNat < lastSquare := h 0 (Nat.succ_pos count)
    have hnext : (n + 1).toNat = n.toNat + 1 := by
      rw [UInt64.toNat_add]
      exact Nat.mod_eq_of_lt (Nat.lt_of_le_of_lt (Nat.succ_le_of_lt hn) (by decide))
    have hrest : ∀ k < count, (n + 1).toNat + k < lastSquare := by
      intro k hk
      have := h (k + 1) (Nat.succ_lt_succ hk)
      omega
    simp only [collect, isPrime?_eq hn, List.range'_succ]
    by_cases hp : n.toNat.Prime
    · obtain ⟨ps, hcollect, hps⟩ := ih (n :: found) hrest
      refine ⟨n :: ps, ?_, ?_⟩
      · simpa [hp] using hcollect
      · simp [hp, hps, hnext]
    · obtain ⟨ps, hcollect, hps⟩ := ih found hrest
      refine ⟨ps, ?_, ?_⟩
      · simpa [hp] using hcollect
      · simp [hp, hps, hnext]

/-- All primes of a range below the last square are found. -/
theorem primesIn_enumerates (start : UInt64) {stop : UInt64} (h : stop.toNat ≤ lastSquare) :
    ∃ ps, primesIn start stop = some ps ∧
      Enumerates ps ((Finset.Ico start.toNat stop.toNat).filter Nat.Prime) := by
  have hbelow : ∀ k < stop.toNat - start.toNat, start.toNat + k < lastSquare := by
    intro k hk
    omega
  obtain ⟨ps, hps, hprimes⟩ := collect_eq [] hbelow
  refine ⟨ps, hps, ?_, ?_⟩
  · rw [hprimes]
    exact List.Nodup.filter _ List.nodup_range'
  · rw [hprimes]
    ext k
    simp [List.mem_range'_1]
    omega

end Primes

end Parley
