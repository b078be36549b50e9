import LedgerGateway.Proofs.Curve.Ecdsa
import LedgerGateway.Signer

/-!
# What a signer signs can be verified

Every signer holds a secret of the right size, whatever file it was read from, so what it signs is a
signature in the sense of the curve: it can be read back, and it verifies with the public key of the
signer (`Signer.sign?_verifies`).
-/

namespace LedgerGateway.Signer

open Curve Curve.Ecdsa
open Curve.P256 (generator order)

/-- **Every signature verifies.**  The digest is cut to its first 32 bytes, or filled up with zeros
in front if it has fewer; it has 16 at least. -/
theorem sign?_verifies {signer : Signer} {digest bytes : Bytes}
    (h : signer.sign? digest = some bytes) :
    16 ≤ digest.length ∧ signer.verifyingKey = generator.multiple signer.secret.value ∧
      ∃ sig, Signature.ofBytes? bytes = some sig ∧ sig.InRange ∧
        inverse order sig.s * sig.s % order = 1 ∧
        Verifies signer.verifyingKey (List.replicate (32 - digest.length) 0 ++ digest.take 32)
          sig := by
  obtain ⟨sig, hsig, rfl⟩ := Option.map_eq_some_iff.mp h
  obtain ⟨field, k, hfield, hanswers⟩ := answers_of_sign? hsig
  obtain ⟨hlength, rfl⟩ := field?_eq_some_iff.mp hfield
  have hrange := hanswers.inRange
  exact ⟨hlength, rfl, sig, Signature.ofBytes?_toBytes hrange, hrange,
    inverse_mul_mod hrange.s_pos hrange.s_lt, hanswers.verifies⟩

/-! ### A signature whose second number is replaced -/

def sampleSigner : Signer where
  secret := {
    value := 0xC9AFA9D845BA75166B5C215767B1D6934E50C3DB36E89B127B8A622B120F6721
    pos := by decide
    lt_order := by decide }

def sampleDigest : Bytes :=
  Bytes.bigEndian 32 0xAF2BDBE1AA9B6EC1E2ADE1D694F41FC71A831D0268E9891562113D8A62ADD1BF

/-- The number that is drawn from them. -/
def sampleNumber : Nat :=
  0xA6E3C57DD01ABE90086538398355DD4C3B17AA873382B0F24D6129493D8AAD60

/-- The signature before the lower second number is taken. -/
def sampleSignature : Signature where
  r := 0xEFD48B2AACB6A8FD1140DD9CD45E81D69D2C877B56AAF991C34D0EA84EAF3716
  s := 0xF7CB1C942D657C41D436C7A1B6E29F65F3E900DBB9AFF4064DC4AB2F843ACDA8

theorem draw?_sample :
    (Drawing.start sampleSigner.secret sampleDigest).draw? attempts = some sampleNumber := by
  decide +kernel

theorem signWith?_sample :
    signWith? sampleSigner.secret sampleDigest sampleNumber = some sampleSignature := by
  rw [signWith?_eq_signWithPowers? _ _ (by decide)]
  decide +kernel

theorem sign?_sample : sampleSigner.sign? sampleDigest = some sampleSignature.lower.toBytes := by
  have hfield : field? sampleDigest = some sampleDigest := by decide
  have hsign : Curve.Ecdsa.sign? sampleSigner.secret sampleDigest = some sampleSignature.lower :=
    sign?_eq_some_iff.mpr
      ⟨sampleDigest, sampleNumber, sampleSignature, hfield, draw?_sample, signWith?_sample, rfl⟩
  exact Option.map_eq_some_iff.mpr ⟨sampleSignature.lower, hsign, rfl⟩

theorem sign?_verifies_sample :
    sampleSigner.sign? sampleDigest = some sampleSignature.lower.toBytes ∧
      order / 2 < sampleSignature.s ∧
      ∃ sig, Signature.ofBytes? sampleSignature.lower.toBytes = some sig ∧ sig.InRange ∧
        inverse order sig.s * sig.s % order = 1 ∧
        Verifies sampleSigner.verifyingKey
          (List.replicate (32 - sampleDigest.length) 0 ++ sampleDigest.take 32) sig :=
  ⟨sign?_sample, by decide, (sign?_verifies sign?_sample).2.2⟩

end LedgerGateway.Signer
