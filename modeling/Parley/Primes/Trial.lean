/-!
# Trial division

Whether a 64-bit number is prime, by dividing it by two and by odd numbers up to its root. The
squares of the divisors are computed in 64 bits as well, which has a consequence near the top: for
a number without a divisor below `2 ^ 32`, from `(2 ^ 32 - 1) ^ 2` on, the loop comes to a divisor
whose square does not fit, and there is no answer (`none`).
-/

namespace Parley

namespace Primes

/-- The largest divisor whose square fits 64 bits. -/
def lastDivisor : UInt64 := 4294967295

theorem toNat_next {d : UInt64} (h : ¬ lastDivisor < d) : (d + 2).toNat = d.toNat + 2 := by
  have hd : d.toNat ≤ 4294967295 := by simpa [lastDivisor, UInt64.lt_iff_toNat_lt] using h
  rw [UInt64.toNat_add]
  exact Nat.mod_eq_of_lt (show d.toNat + 2 < 2 ^ 64 by omega)

/-- Whether none of `d`, `d + 2`, `d + 4`, and so on up to the root of `n` divides `n`. -/
def noDivisorFrom (n d : UInt64) : Option Bool :=
  if h : lastDivisor < d then none
  else if n < d * d then some true
  else if n % d == 0 then some false
  else noDivisorFrom n (d + 2)
termination_by 4294967298 - d.toNat
decreasing_by
  have hd : d.toNat ≤ 4294967295 := by simpa [lastDivisor, UInt64.lt_iff_toNat_lt] using h
  rw [toNat_next h]
  omega

/-- Whether a number is prime, if that can be told. -/
def isPrime? (n : UInt64) : Option Bool :=
  if n < 2 then some false
  else if n % 2 == 0 then some (n == 2)
  else noDivisorFrom n 3

/-- The primes among the `count` numbers from `n` on, behind those in `found`, which is in reverse;
`none` if one of the numbers cannot be told. -/
def collect : Nat → UInt64 → List UInt64 → Option (List UInt64)
  | 0, _, found => some found.reverse
  | count + 1, n, found =>
    match isPrime? n with
    | none => none
    | some prime => collect count (n + 1) (if prime then n :: found else found)

/-- The primes from `start` on and below `stop`. -/
def primesIn (start stop : UInt64) : Option (List UInt64) :=
  collect (stop.toNat - start.toNat) start []

end Primes

end Parley
