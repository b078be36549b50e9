import LedgerGateway.Proofs.Asn1.Canonical
import LedgerGateway.Proofs.Key.Signing
import LedgerGateway.Session

/-!
# Signatures have one spelling

A signature is written by the strict rules of ASN.1, and these leave no choice: each of its two
numbers is written in the fewest bytes, with a zero byte in front exactly where the first bit would
be set otherwise, and each length is the exact one (`Signature.IsStrict`).  No other bytes are read
as the signature (`Signature.toBytes_of_ofBytes?`).

What a signer signs is written in this way, and its second number lies in the lower half
(`Signer.sign_canonical`).
-/

namespace LedgerGateway

namespace Curve.Ecdsa.Signature

open P256 (order)

/-- The bytes of a positive number, the first of which is not zero; and a zero byte in front of them
if the first bit is set. -/
inductive IsInteger (n : Nat) : Bytes → Prop
  | plain {x : UInt8} {rest : Bytes} : x ≠ 0 → x < 0x80 → Bytes.toNat (x :: rest) = n →
      IsInteger n (x :: rest)
  | padded {x : UInt8} {rest : Bytes} : 0x80 ≤ x → Bytes.toNat (x :: rest) = n →
      IsInteger n (0 :: x :: rest)

/-- An identifier, a length in one byte and so much content. -/
inductive IsElement (identifier : UInt8) (content : Bytes) : Bytes → Prop
  | intro {length : UInt8} : length < 0x80 → length.toNat = content.length →
      IsElement identifier content (identifier :: length :: content)

/-- A row of the two numbers as integers, and nothing behind them or behind the row. -/
inductive IsStrict (sig : Signature) : Bytes → Prop
  | intro {r s first second b : Bytes} : IsInteger sig.r r → IsInteger sig.s s →
      IsElement 0x02 r first → IsElement 0x02 s second → IsElement 0x30 (first ++ second) b →
      IsStrict sig b

variable {sig : Signature} {b c : Bytes} {n : Nat}

/-- **A signature that is read is written again as it was.** -/
theorem toBytes_of_ofBytes? (h : ofBytes? b = some sig) : sig.toBytes = b := by
  obtain ⟨content, hcontent, h⟩ := Option.bind_eq_some_iff.mp h
  obtain ⟨es, hes, h⟩ := Option.bind_eq_some_iff.mp h
  split at h
  · rename_i first second
    obtain ⟨r, hr, h⟩ := Option.bind_eq_some_iff.mp h
    obtain ⟨s, hs, h⟩ := Option.bind_eq_some_iff.mp h
    cases h
    rw [Asn1.eq_write_of_readWhole hcontent, Asn1.eq_flatMap_write_of_readAll hes,
      List.flatMap_cons, List.flatMap_singleton, Asn1.write_of_natural? hr,
      Asn1.write_of_natural? hs, toBytes]
  · cases h

theorem isInteger_iff (hpos : 0 < n) : IsInteger n c ↔ c = Asn1.naturalContent n := by
  rw [← Asn1.natural?_eq_some_iff]
  constructor
  · intro h
    cases h with
    | plain hne hlt hn => exact (if_pos ⟨hlt, fun h => absurd h hne⟩).trans (congrArg some hn)
    | @padded x rest hle hn =>
      have hzero : Bytes.toNat (0 :: x :: rest) = n := by
        rw [Bytes.toNat_cons, UInt8.toNat_zero, Nat.zero_mul, Nat.zero_add, hn]
      exact (if_pos ⟨by decide, fun _ => decide_eq_true hle⟩).trans (congrArg some hzero)
  · intro h
    cases c with
    | nil => cases h
    | cons x rest =>
      rw [Asn1.natural?] at h
      split at h
      · rename_i hminimal
        obtain ⟨hlt, hhead⟩ := hminimal
        obtain hn := Option.some.inj h
        by_cases hx : x = 0
        · subst hx
          rw [Bytes.toNat_cons, UInt8.toNat_zero, Nat.zero_mul, Nat.zero_add] at hn
          cases rest with
          | nil => exact absurd hn (Nat.ne_of_lt hpos)
          | cons y rest => exact .padded (of_decide_eq_true (hhead rfl)) hn
        · exact .plain hx hlt hn
      · cases h

/-- One byte is enough for the lengths. -/
theorem InRange.length_le (h : sig.InRange) :
    (Asn1.naturalContent sig.r).length ≤ 33 ∧ (Asn1.naturalContent sig.s).length ≤ 33 := by
  have hsize : order < 256 ^ 32 := by decide
  exact ⟨Asn1.length_naturalContent_le (h.r_lt.trans hsize),
    Asn1.length_naturalContent_le (h.s_lt.trans hsize)⟩

theorem IsElement.length_eq {identifier : UInt8} (h : IsElement identifier c b) :
    b.length = c.length + 2 := by
  cases h
  rfl

theorem isElement_iff {identifier : UInt8} :
    IsElement identifier c b ↔ c.length < 128 ∧ b = Asn1.write identifier c := by
  constructor
  · rintro ⟨hlt, hlength⟩
    have hshort : c.length < 128 := hlength ▸ UInt8.lt_iff_toNat_lt.mp hlt
    refine ⟨hshort, ?_⟩
    rw [Asn1.write, Asn1.writeLength, if_pos hshort, ← hlength, UInt8.ofNat_toNat]
    rfl
  · rintro ⟨hshort, rfl⟩
    have hbyte : (UInt8.ofNat c.length).toNat = c.length :=
      UInt8.toNat_ofNat_of_lt' (show c.length < 256 by omega)
    rw [Asn1.write, Asn1.writeLength, if_pos hshort]
    refine .intro ?_ hbyte
    rw [UInt8.lt_iff_toNat_lt, hbyte]
    exact hshort

/-- **There is one strict spelling**, and it is the one that is written. -/
theorem isStrict_iff (h : sig.InRange) : sig.IsStrict b ↔ b = sig.toBytes := by
  constructor
  · rintro ⟨hr, hs, hfirst, hsecond, hrow⟩
    obtain rfl := (isInteger_iff h.r_pos).mp hr
    obtain rfl := (isInteger_iff h.s_pos).mp hs
    rw [(isElement_iff.mp hrow).2, (isElement_iff.mp hfirst).2, (isElement_iff.mp hsecond).2]
    rfl
  · rintro rfl
    obtain ⟨hr, hs⟩ := h.length_le
    have hfirst : IsElement 0x02 _ (Asn1.writeNatural sig.r) := isElement_iff.mpr ⟨by omega, rfl⟩
    have hsecond : IsElement 0x02 _ (Asn1.writeNatural sig.s) := isElement_iff.mpr ⟨by omega, rfl⟩
    have hrow : (Asn1.writeNatural sig.r ++ Asn1.writeNatural sig.s).length < 128 := by
      rw [List.length_append, hfirst.length_eq, hsecond.length_eq]
      omega
    exact .intro ((isInteger_iff h.r_pos).mpr rfl) ((isInteger_iff h.s_pos).mpr rfl) hfirst hsecond
      (isElement_iff.mpr ⟨hrow, rfl⟩)

/-- The lower of two second numbers lies in the lower half. -/
theorem lower_s_le (sig : Signature) : sig.lower.s ≤ (order - 1) / 2 := by
  have hodd : order = 2 * (order / 2) + 1 := by decide
  have hhalf : (order - 1) / 2 = order / 2 := by decide
  rw [hhalf]
  unfold lower
  split
  · show order - sig.s ≤ order / 2
    omega
  · omega

end Curve.Ecdsa.Signature

namespace Signer

open Curve.Ecdsa
open Curve.P256 (order)

theorem sign_eq_ok_iff {signer : Signer} {digest bytes : Bytes} :
    signer.sign digest = .ok bytes ↔ signer.sign? digest = some bytes := by
  rw [sign]
  cases signer.sign? digest with
  | none => simp
  | some signature => simp

theorem sign_of_short {signer : Signer} {digest : Bytes} (h : digest.length < 16) :
    signer.sign digest = .error .signing := by
  have hfield : field? digest = none := if_pos h
  rw [sign, sign?, Curve.Ecdsa.sign?, hfield]
  rfl

/-- **Signatures are canonical.**  A digest of less than 16 bytes is not signed.  What is signed
otherwise is the one strict spelling of two numbers, of which the second is not above half of the
order, and nothing else is read as these numbers. -/
theorem sign_canonical (signer : Signer) (digest : Bytes) :
    (digest.length < 16 → signer.sign digest = .error .signing) ∧
      ∀ bytes, signer.sign digest = .ok bytes → ∃ sig : Signature,
        (1 ≤ sig.r ∧ sig.r < order) ∧ (1 ≤ sig.s ∧ sig.s ≤ (order - 1) / 2) ∧
        (∀ b, sig.IsStrict b ↔ b = bytes) ∧
        Signature.ofBytes? bytes = some sig ∧ sig.toBytes = bytes ∧
        ∀ b, Signature.ofBytes? b = some sig → b = bytes := by
  refine ⟨sign_of_short, fun bytes h => ?_⟩
  obtain ⟨sig, hsig, rfl⟩ := Option.map_eq_some_iff.mp (sign_eq_ok_iff.mp h)
  obtain ⟨field, k, hfield, hanswers⟩ := answers_of_sign? hsig
  have hrange := hanswers.inRange
  have hlower : sig.s ≤ (order - 1) / 2 := by
    obtain ⟨_, _, made, _, _, _, rfl⟩ := sign?_eq_some_iff.mp hsig
    exact made.lower_s_le
  exact ⟨sig, ⟨hrange.r_pos, hrange.r_lt⟩, ⟨hrange.s_pos, hlower⟩,
    fun b => Signature.isStrict_iff hrange, Signature.ofBytes?_toBytes hrange, rfl,
    fun b hb => (Signature.toBytes_of_ofBytes? hb).symm⟩

/-- The first bit of the first number is set, so that a zero byte comes before it. -/
theorem sign_canonical_sample :
    sampleSigner.sign [0x01] = .error .signing ∧
      sampleSigner.sign sampleDigest = .ok sampleSignature.lower.toBytes ∧
      sampleSignature.lower.toBytes.take 6 = [0x30, 0x45, 0x02, 0x21, 0x00, 0xEF] ∧
      ∃ sig : Signature, sig.s ≤ (order - 1) / 2 ∧ sig.IsStrict sampleSignature.lower.toBytes ∧
        Signature.ofBytes? sampleSignature.lower.toBytes = some sig := by
  have hsign : sampleSigner.sign sampleDigest = .ok sampleSignature.lower.toBytes :=
    sign_eq_ok_iff.mpr sign?_sample
  obtain ⟨sig, -, hs, hstrict, hread, -⟩ := (sign_canonical sampleSigner sampleDigest).2 _ hsign
  exact ⟨(sign_canonical sampleSigner [0x01]).1 (by decide), hsign, by decide +kernel,
    sig, hs.2, (hstrict _).mpr rfl, hread⟩

end Signer

end LedgerGateway
