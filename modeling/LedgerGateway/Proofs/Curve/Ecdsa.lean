import LedgerGateway.Curve.Ecdsa
import LedgerGateway.Proofs.Asn1.Writing
import LedgerGateway.Proofs.Curve.Generator

/-!
# Signatures verify

A signature that is made with a number `k` answers a question about `k`: its second number times `k`
is, modulo the order, the digest plus its first number times the secret, or the negative of that
(`Signature.Answers`).  The signature that is computed first does so without the negative
(`answers_of_signWith?`), and taking the lower of the two second numbers only changes the sign
(`Signature.Answers.lower`).

Dividing by the second number, verification comes to `k` times the generator or to its negative, and
these have the same first coordinate (`Signature.Answers.verifies`).
-/

namespace LedgerGateway.Curve.Ecdsa

open P256 (order generator base)
open Key (Secret)

theorem order_pos : 0 < order := P256.order_prime.pos

/-! ### Numbers modulo the order -/

section Order

variable {n : Nat}

theorem natCast_ne_zero (hpos : 0 < n) (hlt : n < order) : (n : ZMod order) ≠ 0 := by
  intro hzero
  have hdvd : order ∣ n := (ZMod.natCast_eq_zero_iff n order).mp hzero
  exact absurd (Nat.le_of_dvd hpos hdvd) (Nat.not_le.mpr hlt)

theorem inverse_mul_mod (hpos : 0 < n) (hlt : n < order) : inverse order n * n % order = 1 := by
  have hone : 1 % order = 1 := Nat.mod_eq_of_lt P256.order_prime.one_lt
  have hcast : ((inverse order n * n : Nat) : ZMod order) = (1 : Nat) := by
    rw [Nat.cast_mul, natCast_inverse, inv_mul_cancel₀ (natCast_ne_zero hpos hlt), Nat.cast_one]
  rw [(ZMod.natCast_eq_natCast_iff' _ _ _).mp hcast, hone]

end Order

/-! ### What a signature answers -/

namespace Signature

/-- Both numbers are positive and below the order. -/
structure InRange (sig : Signature) : Prop where
  r_pos : 0 < sig.r
  r_lt : sig.r < order
  s_pos : 0 < sig.s
  s_lt : sig.s < order

/-- The second number is the one to the digest `z`, the secret `d` and the number `k`, up to its
sign, and the first one belongs to `k`. -/
structure Answers (sig : Signature) (z d k : Nat) : Prop where
  inRange : sig.InRange
  first : sig.r = (generator.multiple k).abscissa % order
  second : (sig.s * k : ZMod order) = z + sig.r * d ∨ (sig.s * k : ZMod order) = -(z + sig.r * d)

namespace Answers

variable {sig : Signature} {z d k : Nat}

/-- The twin of a signature answers with the other sign. -/
theorem lower (h : sig.Answers z d k) : sig.lower.Answers z d k := by
  unfold Signature.lower
  split
  · next hhigh =>
    have hle : sig.s ≤ order := h.inRange.s_lt.le
    have hneg : ((order - sig.s : Nat) : ZMod order) = -sig.s := by
      rw [Nat.cast_sub hle, ZMod.natCast_self, zero_sub]
    refine ⟨⟨h.inRange.r_pos, h.inRange.r_lt, Nat.sub_pos_of_lt h.inRange.s_lt,
      Nat.sub_lt order_pos h.inRange.s_pos⟩, h.first, ?_⟩
    rw [hneg, neg_mul]
    cases h.second with
    | inl hplus => exact .inr (by rw [hplus])
    | inr hminus => exact .inl (by rw [hminus, neg_neg])
  · exact h

/-- Dividing the question by the second number leaves the multiple the first one belongs to, up to
its sign. -/
theorem abscissa_eq (h : sig.Answers z d k) {u : Nat}
    (hu : (u : ZMod order) = (sig.s : ZMod order)⁻¹ * (z + sig.r * d)) :
    (P256.coordinates (u • base)).abscissa = (generator.multiple k).abscissa := by
  have hs : (sig.s : ZMod order) ≠ 0 := natCast_ne_zero h.inRange.s_pos h.inRange.s_lt
  rw [P256.multiple_generator]
  cases h.second with
  | inl hplus =>
    have hk : (u : ZMod order) = k := by
      rw [hu, ← hplus, inv_mul_cancel_left₀ hs]
    rw [P256.nsmul_base_eq_iff.mpr hk]
  | inr hminus =>
    have hk : (u : ZMod order) = -(k : ZMod order) := by
      rw [hu, ← neg_eq_iff_eq_neg.mpr hminus, mul_neg, inv_mul_cancel_left₀ hs]
    rw [P256.nsmul_base_eq_neg_iff.mpr hk, P256.abscissa_neg]

theorem verifies {secret : Secret} {field : Bytes}
    (h : sig.Answers (Bytes.toNat field) secret.value k) :
    Verifies secret.publicKey field sig := by
  let w := inverse order sig.s
  let z := Bytes.toNat field
  let u := z * w % order + secret.value * (sig.r * w % order)
  have hu : (u : ZMod order) = (sig.s : ZMod order)⁻¹ * (z + sig.r * secret.value) := by
    simp only [u, w, Nat.cast_add, Nat.cast_mul, ZMod.natCast_mod, natCast_inverse]
    ring
  show ((generator.multiple (z * w % order)).add
    ((generator.multiple secret.value).multiple (sig.r * w % order))).abscissa % order = sig.r
  rw [P256.multiple_add_multiple, h.abscissa_eq hu, ← h.first]

end Answers

end Signature

/-! ### How a signature is made -/

section Making

variable {secret : Secret} {field digest : Bytes} {k : Nat} {sig : Signature}

theorem Drawing.draw?_inRange : ∀ {attempts : Nat} {d : Drawing}, d.draw? attempts = some k →
    0 < k ∧ k < order := by
  intro attempts
  induction attempts with
  | zero => intro d h; cases h
  | succ attempts ih =>
    intro d h
    rw [Drawing.draw?] at h
    by_cases hk : 0 < Bytes.toNat (Hash.hmac d.key d.value) ∧
        Bytes.toNat (Hash.hmac d.key d.value) < order
    · rw [if_pos hk] at h
      cases h
      exact hk
    · rw [if_neg hk] at h
      exact ih h

/-- `signWith?`, with powers in the place of inverses. -/
def signWithPowers? (secret : Secret) (field : Bytes) (k : Nat) : Option Signature :=
  let r := (generator.multipleWith (fun a => power P256.fieldSize a 52 (P256.fieldSize - 2))
    256 k).abscissa % order
  let second := power order k 52 (order - 2) * (Bytes.toNat field % order + r * secret.value) %
    order
  if r = 0 ∨ second = 0 then none else some ⟨r, second⟩

theorem signWith?_eq_signWithPowers? (secret : Secret) (field : Bytes) (hk : k < order) :
    signWith? secret field k = signWithPowers? secret field k := by
  rw [signWith?, P256.multiple_eq_multipleWith generator (hk.trans (by decide)),
    inverse_eq_power k (show order < 32 ^ 52 by decide) (by decide), signWithPowers?]

theorem answers_of_signWith? (hpos : 0 < k) (hlt : k < order)
    (h : signWith? secret field k = some sig) :
    sig.Answers (Bytes.toNat field) secret.value k := by
  unfold signWith? at h
  simp only at h
  split at h
  · cases h
  · next hzero =>
    obtain ⟨hr, hs⟩ := not_or.mp hzero
    cases h
    refine ⟨⟨Nat.pos_of_ne_zero hr, Nat.mod_lt _ order_pos, Nat.pos_of_ne_zero hs,
      Nat.mod_lt _ order_pos⟩, rfl, .inl ?_⟩
    push_cast [ZMod.natCast_mod, natCast_inverse]
    rw [mul_comm, mul_inv_cancel_left₀ (natCast_ne_zero hpos hlt)]

theorem sign?_eq_some_iff : sign? secret digest = some sig ↔
    ∃ field k made, field? digest = some field ∧
      (Drawing.start secret field).draw? attempts = some k ∧
      signWith? secret field k = some made ∧ made.lower = sig := by
  constructor
  · intro h
    obtain ⟨field, hfield, h⟩ := Option.bind_eq_some_iff.mp h
    obtain ⟨k, hk, h⟩ := Option.bind_eq_some_iff.mp h
    obtain ⟨made, hmade, h⟩ := Option.bind_eq_some_iff.mp h
    exact ⟨field, k, made, hfield, hk, hmade, Option.some.inj h⟩
  · rintro ⟨field, k, made, hfield, hk, hmade, rfl⟩
    refine Option.bind_eq_some_iff.mpr ⟨field, hfield, ?_⟩
    refine Option.bind_eq_some_iff.mpr ⟨k, hk, ?_⟩
    exact Option.bind_eq_some_iff.mpr ⟨made, hmade, rfl⟩

theorem answers_of_sign? (h : sign? secret digest = some sig) :
    ∃ field k, field? digest = some field ∧ sig.Answers (Bytes.toNat field) secret.value k := by
  obtain ⟨field, k, made, hfield, hk, hmade, rfl⟩ := sign?_eq_some_iff.mp h
  have hrange := Drawing.draw?_inRange hk
  exact ⟨field, k, hfield, (answers_of_signWith? hrange.1 hrange.2 hmade).lower⟩

theorem field?_eq_some_iff : field? digest = some field ↔
    16 ≤ digest.length ∧ field = List.replicate (32 - digest.length) 0 ++ digest.take 32 := by
  unfold field?
  split
  · next hshort =>
    constructor
    · nofun
    · rintro ⟨hlong, _⟩
      omega
  · next hlong => rw [Option.some.injEq, eq_comm, and_iff_right (Nat.not_lt.mp hlong)]

end Making

/-! ### Signatures in bytes -/

namespace Signature

/-- Reads a signature by the strict rules: two integers in a row, and nothing else. -/
def ofBytes? (b : Bytes) : Option Signature := do
  let content ← Asn1.readWhole .strict Asn1.sequence b
  match ← Asn1.readAll .strict content with
  | [first, second] =>
    let r ← first.natural?
    let s ← second.natural?
    return ⟨r, s⟩
  | _ => none

/-- **A signature that is written is read.** -/
theorem ofBytes?_toBytes {sig : Signature} (h : sig.InRange) :
    ofBytes? sig.toBytes = some sig := by
  have hsize : order < 256 ^ 32 := by decide
  have hr : sig.r < 256 ^ 32 := h.r_lt.trans hsize
  have hs : sig.s < 256 ^ 32 := h.s_lt.trans hsize
  have hshort : (Asn1.writeNatural sig.r ++ Asn1.writeNatural sig.s).length < 256 ^ 4 := by
    have hfirst := Asn1.length_writeNatural_le hr (by decide)
    have hsecond := Asn1.length_writeNatural_le hs (by decide)
    rw [List.length_append]
    omega
  have hlast := Asn1.readAll_writeNatural_append .strict hs (by decide) []
  rw [List.append_nil, Asn1.readAll_nil] at hlast
  rw [ofBytes?, toBytes, Asn1.readWhole_write .strict (by decide) hshort]
  simp only [Option.bind_eq_bind, Option.bind_some, hlast, Option.map_some,
    Asn1.readAll_writeNatural_append .strict hr (by decide), Asn1.Element.natural?_ofNatural]
  rfl

end Signature

end LedgerGateway.Curve.Ecdsa
