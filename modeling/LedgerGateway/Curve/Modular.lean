/-!
# Arithmetic modulo a number

Subtraction and inverses modulo a number, on natural numbers. The inverse is found by dividing with
remainder until nothing remains: `cofactor` does so, and keeps for each remainder how often the
first number is in it.
-/

namespace LedgerGateway.Curve

/-- Divides `r` by `s` and goes on with `s` and the remainder, given the multiples `u` and `v` of
the first number that belong to them. Gives the multiple that belongs to the greatest common
divisor. -/
def cofactor (r s : Nat) (u v : Int) : Int :=
  if s = 0 then u else cofactor s (r % s) v (u - (r / s : Nat) * v)
termination_by s
decreasing_by exact Nat.mod_lt _ (Nat.pos_of_ne_zero ‹_›)

/-- The inverse of `a` modulo `m`, when there is one. -/
def inverse (m a : Nat) : Nat :=
  (cofactor a m 1 0 % (m : Int)).toNat

def subtract (m a b : Nat) : Nat :=
  (a + (m - b % m)) % m

end LedgerGateway.Curve
