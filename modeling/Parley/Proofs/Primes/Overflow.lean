import Mathlib.NumberTheory.LucasPrimality
import Mathlib.Tactic.NormNum.Prime
import Mathlib.Tactic.ReduceModChar
import Parley.Proofs.Primes.Trial

/-!
# Where trial division runs out of numbers

The divisors and their squares are numbers of 64 bits. The search as it would go without that bound
(`Tries`) shows where the bound is felt: a divisor is always within it, and a square is not if the
number is a prime from the last square on.

* `Comes.le` — how far the divisors go;
* `noDivisorFrom_eq_none_iff` — the loop gives up at the first square that does not fit;
* `isPrime?_eq_none_iff` — so it does for a number;
* `told_of_squares_fit` — what is told about every number, and about which numbers nothing is.
-/

namespace Parley

namespace Primes

/-- A search for a divisor of `n` that has come to the divisor `d` comes to `e`, if there are no
bounds on numbers. -/
inductive Comes (n : Nat) : Nat → Nat → Prop
  | here (d : Nat) : Comes n d d
  | next {d e : Nat} (hsquare : d * d ≤ n) (hnot : ¬ d ∣ n) (h : Comes n (d + 2) e) : Comes n d e

/-- The divisors that are tried for `n`, each of them squared and compared with it. -/
def Tries (n d : Nat) : Prop :=
  2 ≤ n ∧ n % 2 = 1 ∧ Comes n 3 d

theorem comes_iff {n d e : Nat} :
    Comes n d e ↔ e = d ∨ (d * d ≤ n ∧ ¬ d ∣ n ∧ Comes n (d + 2) e) := by
  constructor
  · intro h
    cases h with
    | here => exact .inl rfl
    | next hsquare hnot h => exact .inr ⟨hsquare, hnot, h⟩
  · rintro (rfl | ⟨hsquare, hnot, h⟩)
    · exact .here _
    · exact .next hsquare hnot h

/-- The last divisor that is tried is the first whose square does not fit. -/
theorem Comes.le {n d e : Nat} (h : Comes n d e) (hn : n < 2 ^ 64) (hd : d ≤ 4294967297) :
    e ≤ 4294967297 := by
  induction h with
  | here d => exact hd
  | @next d e hsquare hnot h ih =>
    apply ih
    by_contra hlarge
    have hbig : 4294967296 * 4294967296 ≤ d * d := by
      apply Nat.mul_le_mul <;> omega
    omega

/-- The loop has no answer exactly if it comes to a divisor whose square does not fit. -/
theorem noDivisorFrom_eq_none_iff (n d : UInt64) :
    noDivisorFrom n d = none ↔ ∃ e, Comes n.toNat d.toNat e ∧ 2 ^ 64 ≤ e * e := by
  fun_induction noDivisorFrom n d with
  | case1 d h =>
    have hd : 4294967296 ≤ d.toNat := by
      simpa [lastDivisor, UInt64.lt_iff_toNat_lt, Nat.succ_le_iff] using h
    have hbig : 4294967296 * 4294967296 ≤ d.toNat * d.toNat := Nat.mul_le_mul hd hd
    exact iff_of_true rfl ⟨d.toNat, .here _, hbig⟩
  | case2 d h hlt =>
    rw [UInt64.lt_iff_toNat_lt, toNat_square h] at hlt
    have hfits := (d * d).toNat_lt
    rw [toNat_square h] at hfits
    refine iff_of_false (Option.some_ne_none _) ?_
    rintro ⟨e, hcomes, hlarge⟩
    obtain rfl | ⟨hsquare, -, -⟩ := comes_iff.mp hcomes <;> omega
  | case3 d h hlt hdvd =>
    have hfits := (d * d).toNat_lt
    rw [toNat_square h] at hfits
    have hmod : n.toNat % d.toNat = 0 := by
      rw [← UInt64.toNat_mod, eq_of_beq hdvd]
      rfl
    refine iff_of_false (Option.some_ne_none _) ?_
    rintro ⟨e, hcomes, hlarge⟩
    obtain rfl | ⟨-, hnot, -⟩ := comes_iff.mp hcomes
    · omega
    · exact hnot (Nat.dvd_of_mod_eq_zero hmod)
  | case4 d h hlt hdvd ih =>
    rw [UInt64.lt_iff_toNat_lt, toNat_square h, Nat.not_lt] at hlt
    have hn := n.toNat_lt
    have hnot : ¬ d.toNat ∣ n.toNat := by
      intro hdvd'
      refine hdvd (beq_iff_eq.mpr (UInt64.toNat_inj.mp ?_))
      rw [UInt64.toNat_mod, Nat.mod_eq_zero_of_dvd hdvd']
      rfl
    rw [toNat_next h] at ih
    refine ih.trans ?_
    constructor
    · rintro ⟨e, hcomes, hlarge⟩
      exact ⟨e, .next hlt hnot hcomes, hlarge⟩
    · rintro ⟨e, hcomes, hlarge⟩
      obtain rfl | ⟨-, -, hrest⟩ := comes_iff.mp hcomes
      · omega
      · exact ⟨e, hrest, hlarge⟩

/-- Nothing is told about a number exactly if a divisor is tried whose square does not fit. -/
theorem isPrime?_eq_none_iff (n : UInt64) :
    isPrime? n = none ↔ ∃ d, Tries n.toNat d ∧ 2 ^ 64 ≤ d * d := by
  have hmod : (n % 2 == 0) = true ↔ n.toNat % 2 = 0 := by
    rw [beq_iff_eq, ← UInt64.toNat_inj, UInt64.toNat_mod]
    rfl
  unfold isPrime?
  split
  · rename_i hsmall
    have hlt : n.toNat < 2 := UInt64.lt_iff_toNat_lt.mp hsmall
    refine iff_of_false (Option.some_ne_none _) ?_
    rintro ⟨d, ⟨hge, -⟩, -⟩
    omega
  · rename_i hsmall
    rw [UInt64.lt_iff_toNat_lt, Nat.not_lt] at hsmall
    split
    · rename_i heven
      rw [hmod] at heven
      refine iff_of_false (Option.some_ne_none _) ?_
      rintro ⟨d, ⟨-, hodd, -⟩, -⟩
      omega
    · rename_i hodd
      rw [hmod] at hodd
      rw [noDivisorFrom_eq_none_iff]
      apply exists_congr
      intro d
      have htries : Tries n.toNat d ↔ Comes n.toNat (3 : UInt64).toNat d :=
        ⟨fun h => h.2.2, fun h => ⟨hsmall, by omega, h⟩⟩
      rw [htries]

/-- No divisor that is tried, and none that would be the next, is too large for 64 bits. A number
cannot be told exactly if the square of a divisor that is tried is; those are the primes from the
last square on. Every other number is told to be prime or not, and rightly so. -/
theorem told_of_squares_fit (n : UInt64) :
    (∀ d, Tries n.toNat d → d + 2 < 2 ^ 64) ∧
      (isPrime? n = none ↔ ∃ d, Tries n.toNat d ∧ 2 ^ 64 ≤ d * d) ∧
      (isPrime? n = none ↔ n.toNat.Prime ∧ lastSquare ≤ n.toNat) ∧
      ∀ told, isPrime? n = some told → (told = true ↔ n.toNat.Prime) := by
  refine ⟨?_, isPrime?_eq_none_iff n, ?_, ?_⟩
  · rintro d ⟨-, -, hcomes⟩
    have hle := hcomes.le n.toNat_lt (by decide)
    omega
  · rw [isPrime?_eq_ite]
    split
    · rename_i hlarge
      exact iff_of_true rfl hlarge
    · rename_i hfits
      exact iff_of_false nofun hfits
  · intro told htold
    rw [isPrime?_eq_ite] at htold
    split at htold
    · cases htold
    · cases htold
      exact decide_eq_true_iff

/-! ## A prime that cannot be told -/

theorem eq_of_prime_dvd {q : Nat} (hq : q.Prime) (h : q ∣ 18446744065119617508) :
    q = 2 ∨ q = 3 ∨ q = 6803 ∨ q = 2962891 ∨ q = 76264483 := by
  have hfactors : 18446744065119617508 = 2 * 2 * 3 * 6803 * 2962891 * 76264483 := by norm_num
  have hfirst : Nat.Prime 6803 := by norm_num
  have hsecond : Nat.Prime 2962891 := by norm_num
  have hthird : Nat.Prime 76264483 := by norm_num
  rw [hfactors] at h
  simp only [hq.dvd_mul, Nat.prime_dvd_prime_iff_eq hq, Nat.prime_two, Nat.prime_three, hfirst,
    hsecond, hthird] at h
  omega

/-- Two generates the residues of this number, by the test of Lucas. -/
theorem prime_large : Nat.Prime 18446744065119617509 := by
  apply lucas_primality _ (2 : ZMod 18446744065119617509)
  · reduce_mod_char
  · intro q hq hdvd
    obtain rfl | rfl | rfl | rfl | rfl := eq_of_prime_dvd hq hdvd <;> reduce_mod_char <;> decide

/-- A prime about which nothing is told, because the square of a divisor does not fit. -/
theorem prime_untold :
    (18446744065119617509 : UInt64).toNat.Prime ∧ isPrime? 18446744065119617509 = none ∧
      ∃ d, Tries (18446744065119617509 : UInt64).toNat d ∧ 2 ^ 64 ≤ d * d := by
  have hprime : (18446744065119617509 : UInt64).toNat.Prime := prime_large
  have hnone : isPrime? 18446744065119617509 = none := by
    rw [isPrime?_eq_ite]
    exact if_pos ⟨hprime, by decide⟩
  exact ⟨hprime, hnone, (isPrime?_eq_none_iff _).mp hnone⟩

end Primes

end Parley
