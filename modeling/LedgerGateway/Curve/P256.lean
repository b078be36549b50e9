import LedgerGateway.Bytes
import LedgerGateway.Curve.Modular

/-!
# The curve P-256

The points of the curve `y² = x³ - 3x + b` over a prime field, with a point at infinity. Three
points on a line add up to infinity, and infinity is the zero of this addition (`Point.add`). All
points are multiples of one of them, `generator`, and there are `order` of them.

A point is written as its two coordinates (`Point.uncompressed`), or as the first with a bit of the
second (`Point.compressed`).
-/

namespace LedgerGateway.Curve

namespace P256

/-- The number of elements of the field. -/
def fieldSize : Nat :=
  0xFFFFFFFF00000001000000000000000000000000FFFFFFFFFFFFFFFFFFFFFFFF

/-- The number of points. -/
def order : Nat :=
  0xFFFFFFFF00000000FFFFFFFFFFFFFFFFBCE6FAADA7179E84F3B9CAC2FC632551

def coefficient : Nat :=
  0x5AC635D8AA3A93E7B3EBBD55769886BC651D06B0CC53B0F63BCE3C3E27D2604B

inductive Point where
  | infinity
  | affine (x y : Nat)
deriving DecidableEq, Repr

def generator : Point :=
  .affine 0x6B17D1F2E12C4247F8BCE6E563A440F277037D812DEB33A0F4A13945D898C296
    0x4FE342E2FE1A7F9B8EE7EB4A7C0F9E162BCE33576B315ECECBB6406837BF51F5

namespace Point

def OnCurve : Point → Prop
  | infinity => True
  | affine x y =>
    x < fieldSize ∧ y < fieldSize ∧
      y * y % fieldSize = (x * x * x + 3 * (fieldSize - x) + coefficient) % fieldSize

/-- The third point on the line of a slope through two points, mirrored. -/
def third (slope x₁ y₁ x₂ : Nat) : Point :=
  let x := subtract fieldSize (slope * slope) (x₁ + x₂)
  .affine x (subtract fieldSize (slope * subtract fieldSize x₁ x) y₁)

def double : Point → Point
  | infinity => infinity
  | affine x y =>
    if y = 0 then infinity
    else
      third (subtract fieldSize (3 * x * x) 3 * inverse fieldSize (2 * y) % fieldSize) x y x

def add : Point → Point → Point
  | infinity, q => q
  | p, infinity => p
  | affine x₁ y₁, affine x₂ y₂ =>
    if x₁ = x₂ then
      if y₁ = y₂ then double (affine x₁ y₁) else infinity
    else
      third (subtract fieldSize y₂ y₁ * inverse fieldSize (subtract fieldSize x₂ x₁) %
        fieldSize) x₁ y₁ x₂

/-- The multiple of a point, by doubling. -/
def multiple (p : Point) (n : Nat) : Point :=
  if n = 0 then infinity
  else
    let half := p.double.multiple (n / 2)
    if n % 2 = 0 then half else p.add half
termination_by n
decreasing_by omega

/-- The point as both coordinates. -/
def uncompressed : Point → Bytes
  | infinity => [0]
  | affine x y => 4 :: (Bytes.bigEndian 32 x ++ Bytes.bigEndian 32 y)

/-- The point as its first coordinate, with the last bit of the second. -/
def compressed : Point → Bytes
  | infinity => [0]
  | affine x y => UInt8.ofNat (2 + y % 2) :: Bytes.bigEndian 32 x

def abscissa : Point → Nat
  | infinity => 0
  | affine x _ => x

end Point

end P256

end LedgerGateway.Curve
