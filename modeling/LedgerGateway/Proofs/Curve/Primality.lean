import LedgerGateway.Curve.P256
import LedgerGateway.Proofs.Curve.Modular
import Mathlib.NumberTheory.LucasPrimality
import Mathlib.Tactic.NormNum.Prime

/-!
# The field size and the order are prime

Lucas's test shows a number to be prime by a base whose powers modulo the number do not come back
to one before they must; it needs the prime factors of the number below.  The large ones among these
are shown to be prime in the same way first, so that the proof is a list of numbers, each with its
base and its factors, where the factors stand earlier in the list (`Chain`).  All that is left is to
compute powers (`primeChain_chain`).
-/

namespace LedgerGateway.Curve

/-- What Lucas's test needs to know of a number: a base, and the prime factors of the number
below. -/
structure Candidate where
  number : Nat
  base : Nat
  factors : List Nat

namespace Candidate

/-- The test, where the factors are among numbers that are known to be prime. -/
def Passes (known : List Nat) (c : Candidate) : Prop :=
  (∀ q ∈ c.factors, q ∈ known) ∧ c.factors.prod = c.number - 1 ∧
    1 < c.number ∧ c.number < 32 ^ 52 ∧
    power c.number c.base 52 (c.number - 1) = 1 ∧
    ∀ q ∈ c.factors, power c.number c.base 52 ((c.number - 1) / q) ≠ 1

instance (known : List Nat) (c : Candidate) : Decidable (c.Passes known) :=
  inferInstanceAs (Decidable (_ ∧ _))

theorem pow_eq_one_iff {c : Candidate} (hone : 1 < c.number) (hsize : c.number < 32 ^ 52) {n : Nat}
    (hn : n ≤ c.number - 1) :
    (c.base : ZMod c.number) ^ n = 1 ↔ power c.number c.base 52 n = 1 := by
  have hexponent : n < 32 ^ 52 := by omega
  rw [power_eq c.base hexponent, ← Nat.cast_pow, ← Nat.cast_one, ZMod.natCast_eq_natCast_iff',
    Nat.mod_eq_of_lt hone]

theorem Passes.prime {known : List Nat} {c : Candidate} (h : c.Passes known)
    (hknown : ∀ q ∈ known, q.Prime) : c.number.Prime := by
  obtain ⟨hfactors, hprod, hone, hsize, hreturns, hnot⟩ := h
  refine lucas_primality c.number (c.base : ZMod c.number) ?_ ?_
  · exact (pow_eq_one_iff hone hsize le_rfl).mpr hreturns
  · intro q hq hdvd
    rw [← hprod] at hdvd
    -- A prime divisor of the product is one of the factors.
    obtain ⟨f, hf, hqf⟩ := (Prime.dvd_prod_iff hq.prime).mp hdvd
    have heq : q = f := (Nat.prime_dvd_prime_iff_eq hq (hknown f (hfactors f hf))).mp hqf
    rw [heq, ne_eq, pow_eq_one_iff hone hsize (Nat.div_le_self _ _)]
    exact hnot f hf

end Candidate

/-- Each number passes the test with those known at first and those before it. -/
def Chain : (known : List Nat) → List Candidate → Prop
  | _, [] => True
  | known, c :: rest => c.Passes known ∧ Chain (c.number :: known) rest

instance decidableChain : (known : List Nat) → (chain : List Candidate) →
    Decidable (Chain known chain)
  | _, [] => .isTrue trivial
  | known, c :: rest =>
    have := decidableChain (c.number :: known) rest
    inferInstanceAs (Decidable (_ ∧ _))

theorem Chain.prime {known : List Nat} {chain : List Candidate} (h : Chain known chain)
    (hknown : ∀ q ∈ known, q.Prime) : ∀ c ∈ chain, c.number.Prime := by
  induction chain generalizing known with
  | nil => exact fun c hc => absurd hc List.not_mem_nil
  | cons first rest ih =>
    have hfirst : first.number.Prime := h.1.prime hknown
    refine List.forall_mem_cons.mpr ⟨hfirst, ih h.2 ?_⟩
    exact List.forall_mem_cons.mpr ⟨hfirst, hknown⟩

namespace P256

/-- The primes below ten million that the chain starts from. -/
def smallPrimes : List Nat :=
  [2, 3, 5, 7, 11, 13, 17, 19, 23, 29, 41, 43, 53, 71, 107, 127, 131, 173, 197, 257, 311, 373, 641,
    1297, 1531, 2411, 3023, 3407, 3677, 3769, 16879, 17449, 18169, 38189, 65537, 78283, 126241,
    155317, 490463, 704251, 3969899, 6700417, 9350987]

/-- Larger and larger primes, up to the field size and the order. -/
def primeChain : List Candidate :=
  [⟨187019741, 2, [2, 2, 5, 9350987]⟩,
    ⟨191039911, 3, [2, 3, 5, 41, 155317]⟩,
    ⟨204061199, 11, [2, 11, 23, 107, 3769]⟩,
    ⟨311245691, 2, [2, 5, 7, 17, 29, 29, 311]⟩,
    ⟨622491383, 5, [2, 311245691]⟩,
    ⟨34282281433, 17, [2, 2, 2, 3, 7, 204061199]⟩,
    ⟨66417393611, 6, [2, 5, 53, 173, 197, 3677]⟩,
    ⟨1002328039319, 19, [2, 126241, 3969899]⟩,
    ⟨11290956913871, 13, [2, 5, 17, 66417393611]⟩,
    ⟨46076956964474543, 5, [2, 23, 18169, 78283, 704251]⟩,
    ⟨208150935158385979, 2, [2, 3, 11, 43, 127, 3023, 191039911]⟩,
    ⟨2624747550333869278416773953, 7,
      [2, 2, 2, 2, 2, 2, 3, 3, 1297, 16879, 208150935158385979]⟩,
    ⟨774023187263532362759620327192479577272145303, 3,
      [2, 3, 3, 2411, 34282281433, 11290956913871, 46076956964474543]⟩,
    ⟨835945042244614951780389953367877943453916927241, 11,
      [2, 2, 2, 3, 3, 3, 5, 774023187263532362759620327192479577272145303]⟩,
    ⟨fieldSize, 6,
      [2, 3, 5, 5, 17, 257, 641, 1531, 65537, 490463, 6700417,
        835945042244614951780389953367877943453916927241]⟩,
    ⟨order, 7,
      [2, 2, 2, 2, 3, 71, 131, 373, 3407, 17449, 38189, 187019741, 622491383, 1002328039319,
        2624747550333869278416773953]⟩]

theorem prime_of_mem_smallPrimes : ∀ q ∈ smallPrimes, q.Prime := by
  simp only [smallPrimes, List.forall_mem_cons]
  norm_num

theorem primeChain_chain : Chain smallPrimes primeChain := by decide +kernel

theorem prime_of_mem_primeChain {n : Nat} (h : n ∈ primeChain.map Candidate.number) : n.Prime := by
  obtain ⟨c, hc, rfl⟩ := List.mem_map.mp h
  exact primeChain_chain.prime prime_of_mem_smallPrimes c hc

/-- **The field size is prime.** -/
theorem fieldSize_prime : fieldSize.Prime := prime_of_mem_primeChain (by simp [primeChain])

/-- **The order is prime.** -/
theorem order_prime : order.Prime := prime_of_mem_primeChain (by simp [primeChain])

instance : Fact fieldSize.Prime := ⟨fieldSize_prime⟩

instance : Fact order.Prime := ⟨order_prime⟩

end P256

end LedgerGateway.Curve
