import LedgerGateway.Proofs.Curve.Group
import Mathlib.GroupTheory.OrderOfElement

/-!
# The order of the generator

The generator, taken `order` times, is infinity (`multiple_order`).  This is computed: with
inverses as powers, and by a recursion on the number of binary digits (`multipleWith`).  As the
order is prime and the generator is not infinity, it is the order of the generator in the group
(`addOrderOf_base`), and multiples of the generator are equal if and only if their multipliers are
equal modulo the order (`nsmul_base_eq_iff`).
-/

namespace LedgerGateway.Curve.P256

/-! ### Points with another inverse -/

namespace Point

/-- `double`, where inverses are found in a way of one's own. -/
def doubleWith (invert : Nat → Nat) : Point → Point
  | infinity => infinity
  | affine x y =>
    if y = 0 then infinity
    else third (subtract fieldSize (3 * x * x) 3 * invert (2 * y) % fieldSize) x y x

/-- `add`, where inverses are found in a way of one's own. -/
def addWith (invert : Nat → Nat) : Point → Point → Point
  | infinity, q => q
  | p, infinity => p
  | affine x₁ y₁, affine x₂ y₂ =>
    if x₁ = x₂ then
      if y₁ = y₂ then doubleWith invert (affine x₁ y₁) else infinity
    else
      third (subtract fieldSize y₂ y₁ * invert (subtract fieldSize x₂ x₁) % fieldSize) x₁ y₁ x₂

/-- `multiple`, where inverses are found in a way of one's own, for a number of so many binary
digits. -/
def multipleWith (invert : Nat → Nat) (p : Point) : (digits : Nat) → Nat → Point
  | 0, _ => infinity
  | digits + 1, n =>
    let half := (p.doubleWith invert).multipleWith invert digits (n / 2)
    if n % 2 = 0 then half else p.addWith invert half

theorem doubleWith_inverse (p : Point) : p.doubleWith (inverse fieldSize) = p.double := by
  cases p with
  | infinity => rfl
  | affine x y => rfl

theorem addWith_inverse (p q : Point) : p.addWith (inverse fieldSize) q = p.add q := by
  cases p with
  | infinity => rfl
  | affine x₁ y₁ =>
    cases q with
    | infinity => rfl
    | affine x₂ y₂ => rfl

theorem multipleWith_inverse : ∀ {digits : Nat} (p : Point) {n : Nat}, n < 2 ^ digits →
    p.multipleWith (inverse fieldSize) digits n = p.multiple n := by
  intro digits
  induction digits with
  | zero =>
    intro p n hn
    have hzero : n = 0 := by rw [pow_zero] at hn; omega
    rw [hzero, multipleWith, multiple, if_pos rfl]
  | succ digits ih =>
    intro p n hn
    have hhalf : n / 2 < 2 ^ digits := by
      rw [pow_succ] at hn
      omega
    rw [multipleWith, doubleWith_inverse, ih p.double hhalf, addWith_inverse]
    conv_rhs => rw [multiple]
    by_cases hzero : n = 0
    · rw [hzero, if_pos rfl, if_pos rfl, multiple, if_pos rfl]
    · rw [if_neg hzero]

end Point

/-- The number of points and that of the field have 256 binary digits, so this is how multiples of
points are computed. -/
theorem multiple_eq_multipleWith (p : Point) {n : Nat} (hn : n < 2 ^ 256) :
    p.multiple n = p.multipleWith (fun a => power fieldSize a 52 (fieldSize - 2)) 256 n := by
  have hpower : inverse fieldSize = fun a => power fieldSize a 52 (fieldSize - 2) :=
    funext fun a => inverse_eq_power a (by decide) (by decide)
  rw [← Point.multipleWith_inverse p hn, hpower]

/-! ### The order -/

/-- The generator, taken as often as the order says, is infinity. -/
theorem multiple_order : generator.multiple order = .infinity := by
  rw [multiple_eq_multipleWith generator (by decide)]
  decide +kernel

theorem generator_onCurve : generator.OnCurve := by
  rw [generator, Point.OnCurve]
  decide +kernel

/-- The generator, in the group. -/
noncomputable def base : curve.Point :=
  (exists_coordinates_iff.mpr generator_onCurve).choose

theorem coordinates_base : coordinates base = generator :=
  (exists_coordinates_iff.mpr generator_onCurve).choose_spec

theorem multiple_generator (n : Nat) : generator.multiple n = coordinates (n • base) := by
  rw [coordinates_nsmul, coordinates_base]

theorem multiple_add_multiple (a b d : Nat) :
    (generator.multiple a).add ((generator.multiple d).multiple b) =
      coordinates ((a + d * b) • base) := by
  rw [multiple_generator, multiple_generator, ← coordinates_nsmul, ← mul_nsmul, ← coordinates_add,
    ← add_nsmul]

theorem base_ne_zero : base ≠ 0 := by
  intro hzero
  have h := coordinates_base
  rw [hzero] at h
  cases h

/-- **The order is the order of the generator.** -/
theorem addOrderOf_base : addOrderOf base = order := by
  refine addOrderOf_eq_prime (coordinates_injective ?_) base_ne_zero
  rw [← multiple_generator, multiple_order, coordinates_zero]

theorem nsmul_base_eq_iff {a b : Nat} :
    a • base = b • base ↔ (a : ZMod order) = (b : ZMod order) := by
  rw [nsmul_eq_nsmul_iff_modEq, addOrderOf_base, ZMod.natCast_eq_natCast_iff]

theorem nsmul_base_eq_neg_iff {a b : Nat} :
    a • base = -(b • base) ↔ (a : ZMod order) = -(b : ZMod order) := by
  rw [eq_neg_iff_add_eq_zero, eq_neg_iff_add_eq_zero, ← add_nsmul, ← Nat.cast_add,
    ← zero_nsmul base, nsmul_base_eq_iff, Nat.cast_zero]

theorem multiple_generator_eq_infinity_iff {n : Nat} :
    generator.multiple n = .infinity ↔ order ∣ n := by
  rw [multiple_generator, ← coordinates_zero, coordinates_injective.eq_iff, ← zero_nsmul base,
    nsmul_base_eq_iff, Nat.cast_zero, ZMod.natCast_eq_zero_iff]

end LedgerGateway.Curve.P256
