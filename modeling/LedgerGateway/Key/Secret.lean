import LedgerGateway.Curve.P256

/-!
# Secrets

A secret is a positive number below the number of points of the curve (`Secret`). The public key
that belongs to it is that multiple of the generator.
-/

namespace LedgerGateway.Key

open Curve (P256.order P256.generator P256.Point)

/-- The number that a private key is. -/
structure Secret where
  value : Nat
  pos : 0 < value
  lt_order : value < P256.order
deriving DecidableEq

namespace Secret

@[ext]
theorem ext : ∀ {a b : Secret}, a.value = b.value → a = b := by
  intro a b h
  cases a
  cases b
  cases h
  rfl

/-- The secret that a number is, if it lies in the range of secrets. -/
def ofNat? (n : Nat) : Option Secret :=
  if h : 0 < n ∧ n < P256.order then some ⟨n, h.1, h.2⟩ else none

def publicKey (s : Secret) : P256.Point :=
  P256.generator.multiple s.value

def toBytes (s : Secret) : Bytes :=
  Bytes.bigEndian 32 s.value

/-- The secret that bytes write. There are at least 24 of them and at most 32. -/
def ofBytes? (b : Bytes) : Option Secret :=
  if 24 ≤ b.length ∧ b.length ≤ 32 then ofNat? (Bytes.toNat b) else none

end Secret

end LedgerGateway.Key
