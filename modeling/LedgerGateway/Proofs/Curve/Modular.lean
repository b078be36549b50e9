import LedgerGateway.Curve.Modular
import Mathlib.FieldTheory.Finite.Basic
import Mathlib.Tactic.LinearCombination
import Mathlib.Tactic.Ring

/-!
# Arithmetic modulo a number, as a ring

Numbers stand for the residues they leave modulo `m`, and the operations on numbers for those of the
ring `ZMod m`: `subtract` for the difference and, modulo a prime, `inverse` for the inverse.

The inverse is what Euclid's algorithm leaves.  Each of its remainders is a multiple of the first
number modulo `m`, and `cofactor` carries the multiplier along; so at the end it has the multiplier
of the greatest common divisor (`natCast_cofactor_mul`).

By Fermat the inverse is a power as well (`inverse_eq_power`), and `power` finds powers in steps
that are few and cheap enough to be taken in a proof.
-/

namespace LedgerGateway.Curve

/-! ### Differences -/

section Subtract

variable {m : Nat}

theorem subtract_lt (hm : 0 < m) (a b : Nat) : subtract m a b < m := Nat.mod_lt _ hm

theorem natCast_subtract (hm : 0 < m) (a b : Nat) :
    (subtract m a b : ZMod m) = (a : ZMod m) - b := by
  have hle : b % m ≤ m := (Nat.mod_lt b hm).le
  rw [subtract, ZMod.natCast_mod, Nat.cast_add, Nat.cast_sub hle, ZMod.natCast_self,
    ZMod.natCast_mod]
  ring

end Subtract

/-! ### Inverses -/

section Inverse

variable {m : Nat}

/-- A division with remainder keeps the multipliers right. -/
theorem natCast_mod_eq_mul {a r s : Nat} {u v : Int} (hr : (u : ZMod m) * a = r)
    (hs : (v : ZMod m) * a = s) :
    ((u - (r / s : Nat) * v : Int) : ZMod m) * a = (r % s : Nat) := by
  have hdivision : ((s * (r / s) + r % s : Nat) : ZMod m) = (r : Nat) :=
    congrArg Nat.cast (Nat.div_add_mod r s)
  rw [Nat.cast_add, Nat.cast_mul] at hdivision
  rw [Int.cast_sub, Int.cast_mul, Int.cast_natCast]
  linear_combination hr - (r / s : Nat) * hs - hdivision

theorem natCast_cofactor_mul {a : Nat} : ∀ (r s : Nat) (u v : Int), (u : ZMod m) * a = r →
    (v : ZMod m) * a = s → (cofactor r s u v : ZMod m) * a = (Nat.gcd r s : Nat) := by
  intro r s u v
  induction r, s, u, v using cofactor.induct with
  | case1 r u v =>
    intro hr _
    rw [cofactor, if_pos rfl, hr, Nat.gcd_zero_right]
  | case2 r s u v hzero ih =>
    intro hr hs
    -- The remainder is a multiple as well, and the greatest common divisor stays the same.
    rw [cofactor, if_neg hzero, ih hs (natCast_mod_eq_mul hr hs), Nat.gcd_comm r s,
      Nat.gcd_rec s r, Nat.gcd_comm (r % s) s]

theorem inverse_lt (hm : 0 < m) (a : Nat) : inverse m a < m := by
  have hpos : (0 : Int) < m := by exact_mod_cast hm
  have hlt := Int.emod_lt_of_pos (cofactor a m 1 0) hpos
  have hnonneg := Int.emod_nonneg (cofactor a m 1 0) hpos.ne'
  rw [inverse]
  omega

theorem natCast_inverse_eq_cofactor (hm : 0 < m) (a : Nat) :
    (inverse m a : ZMod m) = (cofactor a m 1 0 : Int) := by
  have hne : (m : Int) ≠ 0 := by exact_mod_cast hm.ne'
  have hself : ((inverse m a : Nat) : Int) = cofactor a m 1 0 % m :=
    Int.toNat_of_nonneg (Int.emod_nonneg _ hne)
  rw [← Int.cast_natCast, hself, ZMod.intCast_mod]

theorem natCast_inverse_mul (hm : 0 < m) (a : Nat) :
    (inverse m a : ZMod m) * a = (Nat.gcd a m : Nat) := by
  rw [natCast_inverse_eq_cofactor hm]
  refine natCast_cofactor_mul a m 1 0 ?_ ?_
  · rw [Int.cast_one, one_mul]
  · rw [Int.cast_zero, zero_mul, ZMod.natCast_self]

/-- A multiple of `m` has no inverse, and gets zero for one. -/
theorem inverse_of_dvd {a : Nat} (hm : 0 < m) (h : m ∣ a) : inverse m a = 0 := by
  have hzero : a % m = 0 := Nat.mod_eq_zero_of_dvd h
  rw [inverse, cofactor, if_neg hm.ne', hzero, cofactor, if_pos rfl, Int.zero_emod, Int.toNat_zero]

theorem natCast_inverse [Fact m.Prime] (a : Nat) : (inverse m a : ZMod m) = (a : ZMod m)⁻¹ := by
  have hm : 0 < m := (Fact.out : m.Prime).pos
  by_cases h : m ∣ a
  · rw [inverse_of_dvd hm h, (ZMod.natCast_eq_zero_iff a m).mpr h, Nat.cast_zero, inv_zero]
  · have hgcd : Nat.gcd a m = 1 := ((Fact.out : m.Prime).coprime_iff_not_dvd.mpr h).symm
    refine eq_inv_of_mul_eq_one_left ?_
    rw [natCast_inverse_mul hm, hgcd, Nat.cast_one]

end Inverse

/-! ### Powers -/

/-- The power of a number modulo `m`.  The exponent is taken in digits of five bits. -/
def power (m a : Nat) : (digits : Nat) → Nat → Nat
  | 0, _ => 1 % m
  | digits + 1, n => (power m a digits (n / 32)).pow 32 * a.pow (n % 32) % m

section Power

variable {m : Nat}

theorem power_eq (a : Nat) : ∀ {digits n : Nat}, n < 32 ^ digits →
    power m a digits n = a ^ n % m := by
  intro digits
  induction digits with
  | zero =>
    intro n hn
    have hzero : n = 0 := by rw [Nat.pow_zero] at hn; omega
    rw [hzero, power, pow_zero]
  | succ digits ih =>
    intro n hn
    have hquotient : n / 32 < 32 ^ digits := by
      rw [pow_succ] at hn
      omega
    calc power m a (digits + 1) n = (a ^ (n / 32) % m) ^ 32 * a ^ (n % 32) % m := by
          rw [power, ih hquotient, Nat.pow_eq, Nat.pow_eq]
      _ = (a ^ (n / 32)) ^ 32 * a ^ (n % 32) % m := by
          rw [Nat.mul_mod, ← Nat.pow_mod, ← Nat.mul_mod]
      _ = a ^ n % m := by
          rw [← pow_mul, ← pow_add, Nat.div_add_mod' n 32]

theorem natCast_power (a : Nat) {digits n : Nat} (h : n < 32 ^ digits) :
    (power m a digits n : ZMod m) = (a : ZMod m) ^ n := by
  rw [power_eq a h, ZMod.natCast_mod, Nat.cast_pow]

/-- **Inverses are powers**, modulo a prime. -/
theorem inverse_eq_power [Fact m.Prime] (a : Nat) {digits : Nat} (h : m < 32 ^ digits)
    (h2 : 2 < m) : inverse m a = power m a digits (m - 2) := by
  have hm : 0 < m := (Fact.out : m.Prime).pos
  have hexponent : m - 2 < 32 ^ digits := by omega
  have hcast : (inverse m a : ZMod m) = (power m a digits (m - 2) : Nat) := by
    rw [natCast_inverse, natCast_power a hexponent]
    by_cases hzero : (a : ZMod m) = 0
    · rw [hzero, inv_zero, zero_pow (by omega)]
    · refine inv_eq_of_mul_eq_one_right ?_
      rw [← pow_succ', show m - 2 + 1 = m - 1 by omega, ZMod.pow_card_sub_one_eq_one hzero]
  rw [ZMod.natCast_eq_natCast_iff', Nat.mod_eq_of_lt (inverse_lt hm a), power_eq a hexponent,
    Nat.mod_mod] at hcast
  rw [hcast, power_eq a hexponent]

end Power

end LedgerGateway.Curve
