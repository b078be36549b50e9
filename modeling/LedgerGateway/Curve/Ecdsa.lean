import LedgerGateway.Asn1.Element
import LedgerGateway.Hash.Hmac
import LedgerGateway.Key.Secret

/-!
# Signatures

A signature is a pair of numbers made from a secret and a digest (`sign?`). It needs a number that
must not be guessed and not be used twice. Here it is not drawn but computed from the secret and the
digest, so that signing the same digest again gives the same signature (`Drawing`).

Of the two signatures that a digest has, the one with the lower second number is given
(`Signature.lower`). A signature is written as two integers in a row (`Signature.toBytes`).
-/

namespace LedgerGateway.Curve.Ecdsa

open P256 (order generator)
open Key (Secret)

structure Signature where
  r : Nat
  s : Nat
deriving DecidableEq, Repr

namespace Signature

/-- The one of a signature and its twin that has the lower second number. -/
def lower (sig : Signature) : Signature :=
  if order / 2 < sig.s then ⟨sig.r, order - sig.s⟩ else sig

/-- The signature as two integers in a row. -/
def toBytes (sig : Signature) : Bytes :=
  Asn1.write Asn1.sequence (Asn1.writeNatural sig.r ++ Asn1.writeNatural sig.s)

end Signature

/-- The 32 bytes of a digest that are signed: the first ones of a longer digest, and zeros in front
of a shorter one. A digest of less than 16 bytes is not signed. -/
def field? (digest : Bytes) : Option Bytes :=
  if digest.length < 16 then none
  else some (List.replicate (32 - digest.length) 0 ++ digest.take 32)

/-- The state of a row of numbers that are drawn from a secret and a digest. -/
structure Drawing where
  key : Bytes
  value : Bytes

namespace Drawing

def stir (d : Drawing) (seed : Bytes) : Drawing :=
  let key := Hash.hmac d.key (d.value ++ seed)
  ⟨key, Hash.hmac key d.value⟩

def start (s : Secret) (field : Bytes) : Drawing :=
  let seed := s.toBytes ++ field
  ((⟨List.replicate 32 0, List.replicate 32 1⟩ : Drawing).stir (0 :: seed)).stir (1 :: seed)

/-- The first number that can be used, among so many. -/
def draw? (d : Drawing) : (attempts : Nat) → Option Nat
  | 0 => none
  | attempts + 1 =>
    let value := Hash.hmac d.key d.value
    let k := Bytes.toNat value
    if 0 < k ∧ k < order then some k
    else draw? ((⟨d.key, value⟩ : Drawing).stir [0]) attempts

end Drawing

/-- How many numbers are drawn at most, before signing fails. One in four thousand million cannot be
used. -/
def attempts : Nat := 256

/-- The signature of 32 bytes that is made with a number. -/
def signWith? (s : Secret) (field : Bytes) (k : Nat) : Option Signature :=
  let z := Bytes.toNat field % order
  let r := (generator.multiple k).abscissa % order
  let second := inverse order k * (z + r * s.value) % order
  if r = 0 ∨ second = 0 then none else some ⟨r, second⟩

def sign? (s : Secret) (digest : Bytes) : Option Signature := do
  let field ← field? digest
  let k ← (Drawing.start s field).draw? attempts
  let sig ← signWith? s field k
  return sig.lower

/-- Whether a signature of a digest was made with the secret that belongs to a public key. -/
def Verifies (publicKey : P256.Point) (field : Bytes) (sig : Signature) : Prop :=
  let w := inverse order sig.s
  let z := Bytes.toNat field
  ((generator.multiple (z * w % order)).add (publicKey.multiple (sig.r * w % order))).abscissa %
    order = sig.r

end LedgerGateway.Curve.Ecdsa
