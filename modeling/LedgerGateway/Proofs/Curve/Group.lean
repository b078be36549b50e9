import LedgerGateway.Proofs.Curve.Primality
import Mathlib.AlgebraicGeometry.EllipticCurve.Affine.Point

/-!
# The points are a group

Over the field of `fieldSize` elements the equation of P-256 is a Weierstrass equation (`curve`),
and the points on it are a group.  The numbers that write the coordinates of such a point
(`coordinates`) are the points that are computed with: zero is written as infinity, and sums and
multiples are those of `Point.add` (`coordinates_add`) and `Point.multiple` (`coordinates_nsmul`).
Every pair of numbers that satisfies the equation is written by a point (`exists_coordinates_iff`).

So whatever holds of any commutative group holds of the points that are computed with.
-/

namespace LedgerGateway.Curve.P256

/-- The field that coordinates are in. -/
abbrev Coordinate := ZMod fieldSize

/-- The equation `y² = x³ - 3x + b`. -/
def curve : WeierstrassCurve.Affine Coordinate where
  a₁ := 0
  a₂ := 0
  a₃ := 0
  a₄ := -3
  a₆ := (coefficient : Nat)

theorem fieldSize_pos : 0 < fieldSize := fieldSize_prime.pos

section Curve

variable {x y : Coordinate}

theorem negY_curve (x y : Coordinate) : curve.negY x y = -y := by
  simp [curve]

theorem equation_curve_iff :
    curve.Equation x y ↔ y * y = x * x * x - 3 * x + (coefficient : Nat) := by
  rw [WeierstrassCurve.Affine.equation_iff]
  simp only [curve]
  constructor
  · intro h
    linear_combination h
  · intro h
    linear_combination h

theorem natCast_ne {m n : Nat} (h : m % fieldSize ≠ n % fieldSize) :
    (m : Coordinate) ≠ (n : Coordinate) :=
  fun heq => h ((ZMod.natCast_eq_natCast_iff' m n fieldSize).mp heq)

theorem two_ne_zero : (2 : Coordinate) ≠ 0 := by
  exact_mod_cast natCast_ne (m := 2) (n := 0) (by decide)

theorem discriminant_ne_zero : curve.Δ ≠ 0 := by
  have hvalue : curve.Δ = (1728 : Nat) - (432 * coefficient ^ 2 : Nat) := by
    simp only [WeierstrassCurve.Δ, WeierstrassCurve.b₂, WeierstrassCurve.b₄, WeierstrassCurve.b₆,
      WeierstrassCurve.b₈, curve]
    push_cast
    ring
  rw [hvalue, sub_ne_zero]
  exact natCast_ne (by decide +kernel)

theorem nonsingular_curve_iff : curve.Nonsingular x y ↔ curve.Equation x y :=
  (WeierstrassCurve.Affine.equation_iff_nonsingular_of_Δ_ne_zero discriminant_ne_zero).symm

/-- A point is its own negative only where it lies on the axis. -/
theorem eq_negY_iff : y = curve.negY x y ↔ y = 0 := by
  rw [negY_curve, eq_neg_iff_add_eq_zero, ← two_mul, mul_eq_zero]
  exact or_iff_right two_ne_zero

end Curve

/-! ### Coordinates -/

def coordinates : curve.Point → Point
  | .zero => .infinity
  | .some x y _ => .affine x.val y.val

theorem coordinates_zero : coordinates 0 = .infinity := rfl

theorem coordinates_injective : Function.Injective coordinates := by
  intro P Q h
  cases P with
  | zero =>
    cases Q with
    | zero => rfl
    | some x y _ => cases h
  | some x y hP =>
    cases Q with
    | zero => cases h
    | some x' y' hQ =>
      obtain ⟨hx, hy⟩ := Point.affine.inj h
      cases ZMod.val_injective fieldSize hx
      cases ZMod.val_injective fieldSize hy
      rfl

theorem equation_natCast_iff {x y : Nat} (hx : x < fieldSize) :
    curve.Equation (x : Coordinate) (y : Coordinate) ↔
      y * y % fieldSize = (x * x * x + 3 * (fieldSize - x) + coefficient) % fieldSize := by
  rw [equation_curve_iff, ← ZMod.natCast_eq_natCast_iff']
  push_cast [Nat.cast_sub hx.le, ZMod.natCast_self]
  rw [zero_sub, mul_neg, ← sub_eq_add_neg]

/-- **The group has every point of the curve**, and no others. -/
theorem exists_coordinates_iff {p : Point} : (∃ P, coordinates P = p) ↔ p.OnCurve := by
  cases p with
  | infinity => exact iff_of_true ⟨0, rfl⟩ trivial
  | affine x y =>
    constructor
    · rintro ⟨P, hP⟩
      cases P with
      | zero => cases hP
      | some x' y' h =>
        obtain ⟨rfl, rfl⟩ := Point.affine.inj hP
        refine ⟨x'.val_lt, y'.val_lt, (equation_natCast_iff x'.val_lt).mp ?_⟩
        rw [ZMod.natCast_zmod_val, ZMod.natCast_zmod_val]
        exact h.1
    · rintro ⟨hx, hy, hequation⟩
      have h : curve.Nonsingular (x : Coordinate) (y : Coordinate) :=
        nonsingular_curve_iff.mpr ((equation_natCast_iff hx).mpr hequation)
      refine ⟨.some x y h, ?_⟩
      rw [coordinates, ZMod.val_natCast_of_lt hx, ZMod.val_natCast_of_lt hy]

/-! ### Sums -/

section Sums

variable {x₁ y₁ x₂ y₂ slope : Coordinate}

theorem eq_val_of_natCast_eq {z : Coordinate} {n : Nat} (hn : n < fieldSize)
    (h : (n : Coordinate) = z) : n = z.val := by
  rw [← h, ZMod.val_natCast_of_lt hn]

theorem third_val {n : Nat} (h : (n : Coordinate) = slope) :
    Point.third n x₁.val y₁.val x₂.val =
      .affine (curve.addX x₁ x₂ slope).val (curve.addY x₁ x₂ y₁ slope).val := by
  have hx : subtract fieldSize (n * n) (x₁.val + x₂.val) = (curve.addX x₁ x₂ slope).val := by
    refine eq_val_of_natCast_eq (subtract_lt fieldSize_pos _ _) ?_
    rw [natCast_subtract fieldSize_pos, Nat.cast_mul, Nat.cast_add, ZMod.natCast_zmod_val,
      ZMod.natCast_zmod_val, h, WeierstrassCurve.Affine.addX]
    simp only [curve]
    ring
  have hy : subtract fieldSize (n * subtract fieldSize x₁.val (curve.addX x₁ x₂ slope).val) y₁.val =
      (curve.addY x₁ x₂ y₁ slope).val := by
    refine eq_val_of_natCast_eq (subtract_lt fieldSize_pos _ _) ?_
    rw [natCast_subtract fieldSize_pos, Nat.cast_mul, natCast_subtract fieldSize_pos,
      ZMod.natCast_zmod_val, ZMod.natCast_zmod_val, ZMod.natCast_zmod_val, h,
      WeierstrassCurve.Affine.addY, negY_curve, WeierstrassCurve.Affine.negAddY]
    ring
  rw [Point.third, hx, hy]

theorem natCast_tangent (x y : Coordinate) (hy : y ≠ 0) :
    ((subtract fieldSize (3 * x.val * x.val) 3 * inverse fieldSize (2 * y.val) % fieldSize : Nat) :
      Coordinate) = curve.slope x x y y := by
  rw [WeierstrassCurve.Affine.slope_of_Y_ne rfl (eq_negY_iff.not.mpr hy), ZMod.natCast_mod,
    Nat.cast_mul, natCast_subtract fieldSize_pos, natCast_inverse, negY_curve, div_eq_mul_inv]
  simp only [curve]
  push_cast
  rw [ZMod.natCast_zmod_val, ZMod.natCast_zmod_val, sub_neg_eq_add, ← two_mul]
  ring

theorem natCast_chord (hx : x₁ ≠ x₂) (y₁ y₂ : Coordinate) :
    ((subtract fieldSize y₂.val y₁.val * inverse fieldSize (subtract fieldSize x₂.val x₁.val) %
      fieldSize : Nat) : Coordinate) = curve.slope x₁ x₂ y₁ y₂ := by
  rw [WeierstrassCurve.Affine.slope_of_X_ne hx, ZMod.natCast_mod, Nat.cast_mul,
    natCast_subtract fieldSize_pos, natCast_inverse, natCast_subtract fieldSize_pos,
    ZMod.natCast_zmod_val, ZMod.natCast_zmod_val, ZMod.natCast_zmod_val, ZMod.natCast_zmod_val,
    ← div_eq_mul_inv, ← neg_sub y₁ y₂, ← neg_sub x₁ x₂, neg_div_neg_eq]

theorem coordinates_add_self (P : curve.Point) :
    coordinates (P + P) = (coordinates P).double := by
  cases P with
  | zero => rfl
  | some x y h =>
    by_cases hy : y = 0
    · have hself : y = curve.negY x y := eq_negY_iff.mpr hy
      rw [WeierstrassCurve.Affine.Point.add_self_of_Y_eq hself, coordinates_zero, coordinates,
        Point.double, if_pos ((ZMod.val_eq_zero y).mpr hy)]
    · have hself : y ≠ curve.negY x y := eq_negY_iff.not.mpr hy
      rw [WeierstrassCurve.Affine.Point.add_self_of_Y_ne hself, coordinates, coordinates,
        Point.double, if_neg ((ZMod.val_eq_zero y).not.mpr hy), third_val (natCast_tangent x y hy)]

/-- **Sums of points are sums of the group.** -/
theorem coordinates_add (P Q : curve.Point) :
    coordinates (P + Q) = (coordinates P).add (coordinates Q) := by
  cases P with
  | zero => exact congrArg coordinates (zero_add Q)
  | some x₁ y₁ h₁ =>
    cases Q with
    | zero => exact congrArg coordinates (add_zero _)
    | some x₂ y₂ h₂ =>
      by_cases hx : x₁ = x₂
      · subst hx
        by_cases hy : y₁ = y₂
        · subst hy
          rw [coordinates_add_self, coordinates, Point.add, if_pos rfl, if_pos rfl]
        · -- Two points above one place are each other's negatives.
          have hneg : y₁ = curve.negY x₁ y₂ :=
            (WeierstrassCurve.Affine.Y_eq_of_X_eq h₁.1 h₂.1 rfl).resolve_left hy
          have hval : y₁.val ≠ y₂.val := fun h => hy (ZMod.val_injective fieldSize h)
          rw [WeierstrassCurve.Affine.Point.add_of_Y_eq rfl hneg, coordinates_zero, coordinates,
            coordinates, Point.add, if_pos rfl, if_neg hval]
      · have hval : x₁.val ≠ x₂.val := fun h => hx (ZMod.val_injective fieldSize h)
        rw [WeierstrassCurve.Affine.Point.add_of_X_ne hx, coordinates, coordinates, coordinates,
          Point.add, if_neg hval, third_val (natCast_chord hx y₁ y₂)]

/-- **Multiples of points are multiples of the group.** -/
theorem coordinates_nsmul (n : Nat) (P : curve.Point) :
    coordinates (n • P) = (coordinates P).multiple n := by
  -- As the point is doubled while the number is halved, the induction is for all points at once.
  induction n using Nat.strong_induction_on generalizing P with
  | _ n ih =>
    rw [Point.multiple]
    split
    · next hzero => rw [hzero, zero_nsmul, coordinates_zero]
    · next hzero =>
      have hhalf : coordinates ((n / 2) • (P + P)) = (coordinates P).double.multiple (n / 2) := by
        rw [ih (n / 2) (by omega), coordinates_add_self]
      have htwice : (n / 2) • (P + P) = (2 * (n / 2)) • P := by
        rw [← two_nsmul, ← mul_nsmul]
      rw [htwice] at hhalf
      split
      · next heven => rw [← hhalf, show 2 * (n / 2) = n by omega]
      · next hodd =>
        have hsplit : n = 2 * (n / 2) + 1 := by omega
        rw [← hhalf, ← coordinates_add, ← succ_nsmul', ← hsplit]

end Sums

/-- A point and its negative have the same first coordinate. -/
theorem abscissa_neg (P : curve.Point) :
    (coordinates (-P)).abscissa = (coordinates P).abscissa := by
  cases P with
  | zero => rfl
  | some x y h => rfl

end LedgerGateway.Curve.P256
