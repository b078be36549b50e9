import LedgerGateway.Proofs.Asn1.Writing
import LedgerGateway.Proofs.Curve.Generator
import LedgerGateway.Proofs.Key.Consistency
import LedgerGateway.Proofs.Pem.KeyText

/-!
# The two forms of a key are interchangeable

A number of 32 bytes can be written where a key in the short form has its secret, with the name of
the curve and with its public key, or without (`Key.shortForm`), and this inside the long form
(`Key.longForm`).  The short form of a secret is how `Key.toSec1` writes it.

Either form is read as the secret that the number is, if it is one, and as nothing otherwise
(`Key.ofSec1?_shortForm`, `Key.ofPkcs8?_longForm`), and so every secret is read back
(`Key.ofSec1?_toSec1`).  The PEM texts of the two forms give the same signer, and they do so exactly
for the numbers between zero and the order of the curve (`Signer.ofPem_forms`).
-/

namespace LedgerGateway

open Asn1 (Element)
open Curve.P256 (generator order)

namespace Key

variable {d : Nat} {s : Secret} {e : Element} {es : List Element} {n : Nat}

def shortForm (d : Nat) (withCurve withPublicKey : Bool) : Bytes :=
  Asn1.write Asn1.sequence <|
    Asn1.writeNatural 1 ++ Asn1.write Asn1.octetString (Bytes.bigEndian 32 d) ++
      (if withCurve then
        Asn1.write (Asn1.context 0) (Asn1.write Asn1.objectIdentifier curveName) else []) ++
      if withPublicKey then
        Asn1.write (Asn1.context 1)
          (Asn1.write Asn1.bitString (0 :: (generator.multiple d).uncompressed))
      else []

def longForm (d : Nat) (withCurve withPublicKey : Bool) : Bytes :=
  Asn1.write Asn1.sequence <|
    Asn1.writeNatural 0 ++ Asn1.write Asn1.sequence keyKind ++
      Asn1.write Asn1.octetString (shortForm d withCurve withPublicKey)

theorem toSec1_eq_shortForm (s : Secret) (withCurve withPublicKey : Bool) :
    toSec1 s withCurve withPublicKey = shortForm s.value withCurve withPublicKey := rfl

/-! ### The elements of a form -/

theorem readRow_writeRow (h : ∀ e ∈ es, e.IsReadable n) (hn : es.length * (n + 6) < 256 ^ 4)
    (hne : es ≠ []) : readRow (Asn1.write Asn1.sequence (Asn1.writeRow es)) = some es := by
  have hpos : 0 < es.length := List.length_pos_iff.mpr hne
  have hlt : n < 256 ^ 4 := by
    have hle := Nat.le_mul_of_pos_left (n + 6) hpos
    omega
  have hlength := Asn1.length_writeRow_le h hlt
  rw [readRow, Asn1.readWhole_write .strict (by decide) (Nat.lt_of_le_of_lt hlength hn),
    Option.bind_some, Asn1.readAll_writeRow .strict h hlt]

def curveElement : Element :=
  .ofContent (Asn1.context 0) (Asn1.write Asn1.objectIdentifier curveName)

/-- The element that holds the public key of a number. -/
def publicKeyElement (d : Nat) : Element :=
  .ofContent (Asn1.context 1)
    (Asn1.write Asn1.bitString (0 :: (generator.multiple d).uncompressed))

/-- What stands behind the secret in the short form. -/
def behindSecret (d : Nat) (withCurve withPublicKey : Bool) : List Element :=
  (if withCurve then [curveElement] else []) ++ if withPublicKey then [publicKeyElement d] else []

def shortRow (d : Nat) (withCurve withPublicKey : Bool) : List Element :=
  .ofContent Asn1.integer [1] :: .ofContent Asn1.octetString (Bytes.bigEndian 32 d) ::
    behindSecret d withCurve withPublicKey

def longRow (d : Nat) (withCurve withPublicKey : Bool) : List Element :=
  [.ofContent Asn1.integer [0], .ofContent Asn1.sequence keyKind,
    .ofContent Asn1.octetString (shortForm d withCurve withPublicKey)]

theorem length_uncompressed_le (p : Curve.P256.Point) : p.uncompressed.length ≤ 65 := by
  cases p with
  | infinity => exact Nat.le_of_ble_eq_true rfl
  | affine x y =>
    rw [Curve.P256.Point.uncompressed, List.length_cons, List.length_append,
      Bytes.length_bigEndian, Bytes.length_bigEndian]

theorem length_publicKey_le (d : Nat) :
    (0 :: (generator.multiple d).uncompressed : Bytes).length ≤ 66 :=
  Nat.succ_le_succ (length_uncompressed_le _)

theorem isReadable_publicKeyElement (d : Nat) : (publicKeyElement d).IsReadable 72 := by
  have hkey := length_publicKey_le d
  have hwrite : (publicKeyElement d).content.length ≤ _ := Asn1.length_write_le (by omega)
  exact Element.isReadable_ofContent (by decide) (Nat.le_trans hwrite (Nat.add_le_add_right hkey 6))

theorem isReadable_of_mem_shortRow {withCurve withPublicKey : Bool}
    (he : e ∈ shortRow d withCurve withPublicKey) : e.IsReadable 72 := by
  rcases List.mem_cons.mp he with rfl | he
  · exact Element.isReadable_ofContent (by decide) (by decide)
  rcases List.mem_cons.mp he with rfl | he
  · refine Element.isReadable_ofContent (by decide) ?_
    rw [Bytes.length_bigEndian]
    decide
  rcases List.mem_append.mp he with he | he
  · cases withCurve with
    | false => cases he
    | true =>
      rw [List.mem_singleton.mp he]
      exact Element.isReadable_ofContent (by decide) (by decide)
  · cases withPublicKey with
    | false => cases he
    | true =>
      rw [List.mem_singleton.mp he]
      exact isReadable_publicKeyElement d

theorem length_shortRow_le (d : Nat) (withCurve withPublicKey : Bool) :
    (shortRow d withCurve withPublicKey).length ≤ 4 := by
  cases withCurve <;> cases withPublicKey <;> exact Nat.le_of_ble_eq_true rfl

theorem shortForm_eq (d : Nat) (withCurve withPublicKey : Bool) :
    shortForm d withCurve withPublicKey =
      Asn1.write Asn1.sequence (Asn1.writeRow (shortRow d withCurve withPublicKey)) := by
  have hversion : Asn1.writeNatural 1 = Asn1.write Asn1.integer [1] := by decide
  rw [shortForm, hversion]
  cases withCurve <;> cases withPublicKey <;>
    simp only [shortRow, behindSecret, Asn1.writeRow, curveElement, publicKeyElement,
      Element.ofContent, if_true, if_false, Bool.false_eq_true, List.flatMap_cons,
      List.flatMap_nil, List.append_nil, List.nil_append, List.cons_append, List.append_assoc]

theorem longForm_eq (d : Nat) (withCurve withPublicKey : Bool) :
    longForm d withCurve withPublicKey =
      Asn1.write Asn1.sequence (Asn1.writeRow (longRow d withCurve withPublicKey)) := by
  have hversion : Asn1.writeNatural 0 = Asn1.write Asn1.integer [0] := by decide
  rw [longForm, hversion]
  simp only [longRow, Asn1.writeRow, Element.ofContent, List.flatMap_cons, List.flatMap_nil,
    List.append_nil, List.append_assoc]

theorem length_shortForm_le (d : Nat) (withCurve withPublicKey : Bool) :
    (shortForm d withCurve withPublicKey).length ≤ 318 := by
  have hcount := length_shortRow_le d withCurve withPublicKey
  have hrow := Asn1.length_writeRow_le
    (fun e (he : e ∈ shortRow d withCurve withPublicKey) => isReadable_of_mem_shortRow he)
    (by decide : 72 < 256 ^ 4)
  have hwrite : (shortForm d withCurve withPublicKey).length ≤
      (Asn1.writeRow (shortRow d withCurve withPublicKey)).length + 6 := by
    rw [shortForm_eq]
    exact Asn1.length_write_le (by omega)
  omega

theorem readRow_shortForm (d : Nat) (withCurve withPublicKey : Bool) :
    readRow (shortForm d withCurve withPublicKey) = some (shortRow d withCurve withPublicKey) := by
  have hcount := length_shortRow_le d withCurve withPublicKey
  rw [shortForm_eq]
  exact readRow_writeRow (n := 72) (fun _ he => isReadable_of_mem_shortRow he) (by omega)
    (List.cons_ne_nil _ _)

theorem readRow_longForm (d : Nat) (withCurve withPublicKey : Bool) :
    readRow (longForm d withCurve withPublicKey) = some (longRow d withCurve withPublicKey) := by
  have hlength := length_shortForm_le d withCurve withPublicKey
  rw [longForm_eq]
  have hcount : (longRow d withCurve withPublicKey).length = 3 := rfl
  refine readRow_writeRow (n := 318) ?_ (by omega) (List.cons_ne_nil _ _)
  simp only [longRow, List.forall_mem_cons, List.not_mem_nil, false_imp_iff, implies_true, and_true]
  exact ⟨Element.isReadable_ofContent (by decide) (by decide),
    Element.isReadable_ofContent (by decide) (by decide),
    Element.isReadable_ofContent (by decide) hlength⟩

/-! ### What a form is read as -/

theorem namesCurve_curveElement : namesCurve curveElement = true := by
  decide +kernel

/-- The public key of a secret is the one that is looked for. -/
theorem holdsPublicKey_publicKeyElement (s : Secret) :
    holdsPublicKey s (publicKeyElement s.value) = true := by
  have hkey := length_publicKey_le s.value
  have hread : Asn1.readWhole .strict Asn1.bitString (publicKeyElement s.value).content =
      some (0 :: s.publicKey.uncompressed) :=
    Asn1.readWhole_write .strict (by decide) (by omega)
  rw [holdsPublicKey, hread, Option.bind_some, Asn1.wholeBits?]
  simp

theorem areCurveAndPublicKey_behindSecret (s : Secret) (withCurve withPublicKey : Bool) :
    areCurveAndPublicKey s (behindSecret s.value withCurve withPublicKey) = true := by
  have hkey : endsWithPublicKey s [publicKeyElement s.value] = true := by
    have hcontext : isContext 0 (publicKeyElement s.value) = false :=
      isContext_zero_of_identifier rfl
    rw [endsWithPublicKey, hcontext, holdsPublicKey_publicKeyElement]
    rfl
  have hcontext : isContext 0 curveElement = true := by decide
  cases withCurve with
  | false =>
    cases withPublicKey with
    | false => rfl
    | true => exact hkey
  | true =>
    have hcurve : ∀ rest, areCurveAndPublicKey s (curveElement :: rest) =
        endsWithPublicKey s rest := by
      intro rest
      rw [areCurveAndPublicKey, if_pos hcontext, namesCurve_curveElement]
      rfl
    cases withPublicKey with
    | false => exact hcurve []
    | true => exact (hcurve _).trans hkey

theorem ofBytes?_bigEndian (hd : d < 256 ^ 32) :
    Secret.ofBytes? (Bytes.bigEndian 32 d) = Secret.ofNat? d := by
  have hlength : 24 ≤ (Bytes.bigEndian 32 d).length ∧ (Bytes.bigEndian 32 d).length ≤ 32 := by
    rw [Bytes.length_bigEndian]
    decide
  rw [Secret.ofBytes?, if_pos hlength, Bytes.toNat_bigEndian, Nat.mod_eq_of_lt hd]

theorem value_of_ofNat? (h : Secret.ofNat? d = some s) : s.value = d := by
  rw [Secret.ofNat?] at h
  split at h
  · cases h
    rfl
  · cases h

/-- **The short form of a number is read as the secret it is**, or as nothing. -/
theorem ofSec1?_shortForm (hd : d < 256 ^ 32) (withCurve withPublicKey : Bool) :
    ofSec1? (shortForm d withCurve withPublicKey) = Secret.ofNat? d := by
  rw [ofSec1?, readRow_shortForm, shortRow]
  simp only [Option.bind_eq_bind, Option.bind_some, Element.ofContent, ofBytes?_bigEndian hd]
  cases hs : Secret.ofNat? d with
  | none => rfl
  | some s =>
    obtain rfl := value_of_ofNat? hs
    rw [Option.bind_some, areCurveAndPublicKey_behindSecret]
    rfl

/-- **The long form of a number is read as the secret it is**, or as nothing. -/
theorem ofPkcs8?_longForm (hd : d < 256 ^ 32) (withCurve withPublicKey : Bool) :
    ofPkcs8? (longForm d withCurve withPublicKey) = Secret.ofNat? d := by
  have hversion : announcesPublicKey? (.ofContent Asn1.integer [0]) = some false := by decide
  have hparts : ((Element.ofContent Asn1.sequence keyKind).identifier == Asn1.sequence &&
      (Element.ofContent Asn1.sequence keyKind).content == keyKind &&
      (Element.ofContent Asn1.octetString (shortForm d withCurve withPublicKey)).identifier ==
        Asn1.octetString && areAdditions false []) = true := by
    simp [Element.ofContent, areAdditions]
  rw [ofPkcs8?, readRow_longForm, longRow, ← ofSec1?_shortForm hd withCurve withPublicKey]
  simp only [Option.bind_eq_bind, Option.bind_some, hversion]
  rw [(Option.guard_eq_some' ()).mpr hparts, Option.bind_some, Element.ofContent]

theorem Secret.ofNat?_value (s : Secret) : Secret.ofNat? s.value = some s :=
  dif_pos ⟨s.pos, s.lt_order⟩

theorem Secret.value_lt (s : Secret) : s.value < 256 ^ 32 := s.lt_order.trans (by decide)

/-- A secret is read back from the short form. -/
theorem ofSec1?_toSec1 (s : Secret) (withCurve withPublicKey : Bool) :
    ofSec1? (toSec1 s withCurve withPublicKey) = some s := by
  rw [toSec1_eq_shortForm, ofSec1?_shortForm s.value_lt, Secret.ofNat?_value]

end Key

/-! ### The texts of the two forms -/

namespace Signer

variable {d : Nat} {pem b long short : Bytes}

theorem secretOfPem?_long (h : Pem.readKeyText longLabel pem = some b) :
    secretOfPem? pem = Key.ofPkcs8? b := by
  have hshort : Pem.readKeyText shortLabel pem = none :=
    Option.eq_none_iff_forall_not_mem.mpr fun _ => readKeyText_label_unique h
  rw [secretOfPem?, h, hshort, Option.bind_some, Option.bind_none]
  cases Key.ofPkcs8? b <;> rfl

theorem secretOfPem?_short (h : Pem.readKeyText shortLabel pem = some b) :
    secretOfPem? pem = Key.ofSec1? b := by
  have hlong : Pem.readKeyText longLabel pem = none :=
    Option.eq_none_iff_forall_not_mem.mpr fun _ h' => readKeyText_label_unique h' h
  rw [secretOfPem?, hlong, h, Option.bind_none, Option.bind_some]

theorem ofPem_eq_unsupported (hascii : ∀ x ∈ pem, x < 0x80) (h : secretOfPem? pem = none) :
    ofPem pem = .error .unsupported := by
  have htext := Text.decodeUtf8?_eq_some_iff.mpr (Text.encodeUtf8_of_ascii hascii).symm
  rw [ofPem, htext, h]

/-- The public key of a signer is a point of the curve other than infinity. -/
theorem verifyingKey_onCurve (s : Key.Secret) :
    (Signer.mk s).verifyingKey.OnCurve ∧ (Signer.mk s).verifyingKey ≠ .infinity := by
  constructor
  · exact Curve.P256.exists_coordinates_iff.mp
      ⟨_, (Curve.P256.multiple_generator s.value).symm⟩
  · intro hinfinity
    have hdvd := Curve.P256.multiple_generator_eq_infinity_iff.mp hinfinity
    exact Nat.not_dvd_of_pos_of_lt s.pos s.lt_order hdvd

/-- **The two forms of a number are interchangeable.**  If the number is a secret, the text of
either form gives its signer, whose public key is that multiple of the generator; if it is not, both
texts are refused.  Either form may name the curve or carry the public key, or not. -/
theorem ofPem_forms (hd : d < 256 ^ 32) {c p c' p' : Bool}
    (hlong : Pem.IsKeyText longLabel (Key.longForm d c p) long)
    (hshort : Pem.IsKeyText shortLabel (Key.shortForm d c' p') short) :
    (0 < d ∧ d < order → ∃ signer, ofPem long = .ok signer ∧ ofPem short = .ok signer ∧
      signer.secret.value = d ∧ signer.verifyingKey = generator.multiple d ∧
      signer.verifyingKey.OnCurve ∧ signer.verifyingKey ≠ .infinity) ∧
    (d = 0 ∨ order ≤ d →
      ofPem long = .error .unsupported ∧ ofPem short = .error .unsupported) := by
  have hlongAscii := hlong.lt (by decide +kernel)
  have hshortAscii := hshort.lt (by decide +kernel)
  have hlongSecret : secretOfPem? long = Key.Secret.ofNat? d :=
    (secretOfPem?_long hlong.readKeyText_eq).trans (Key.ofPkcs8?_longForm hd c p)
  have hshortSecret : secretOfPem? short = Key.Secret.ofNat? d :=
    (secretOfPem?_short hshort.readKeyText_eq).trans (Key.ofSec1?_shortForm hd c' p')
  constructor
  · intro hrange
    have hsecret : Key.Secret.ofNat? d = some ⟨d, hrange.1, hrange.2⟩ := dif_pos hrange
    rw [hsecret] at hlongSecret hshortSecret
    exact ⟨⟨⟨d, hrange.1, hrange.2⟩⟩, ofPem_of_secretOfPem? hlongAscii hlongSecret,
      ofPem_of_secretOfPem? hshortAscii hshortSecret, rfl, rfl, verifyingKey_onCurve _⟩
  · intro hrange
    have hnone : Key.Secret.ofNat? d = none := dif_neg (by omega)
    rw [hnone] at hlongSecret hshortSecret
    exact ⟨ofPem_eq_unsupported hlongAscii hlongSecret,
      ofPem_eq_unsupported hshortAscii hshortSecret⟩

/-- The largest secret is read from either form, and the number behind it from neither. -/
theorem ofPem_forms_order :
    (∃ signer, ofPem (Pem.writeKeyText longLabel (Key.longForm (order - 1) false true)) =
        .ok signer ∧
      ofPem (Pem.writeKeyText shortLabel (Key.shortForm (order - 1) true false)) = .ok signer ∧
      signer.secret.value = order - 1) ∧
    ofPem (Pem.writeKeyText longLabel (Key.longForm order true false)) = .error .unsupported := by
  have htext : ∀ d c p, Pem.IsKeyText longLabel (Key.longForm d c p)
      (Pem.writeKeyText longLabel (Key.longForm d c p)) :=
    fun d c p => Pem.isKeyText_writeKeyText _ (List.cons_ne_nil _ _)
  have htext' : ∀ d c p, Pem.IsKeyText shortLabel (Key.shortForm d c p)
      (Pem.writeKeyText shortLabel (Key.shortForm d c p)) :=
    fun d c p => Pem.isKeyText_writeKeyText _ (List.cons_ne_nil _ _)
  have hlast := (ofPem_forms (d := order - 1) (by decide) (htext _ false true)
    (htext' _ true false)).1 (by decide)
  have hbehind := (ofPem_forms (d := order) (by decide) (htext _ true false)
    (htext' _ false false)).2 (.inr (Nat.le_refl _))
  obtain ⟨signer, hlong, hshort, hvalue, -⟩ := hlast
  exact ⟨⟨signer, hlong, hshort, hvalue⟩, hbehind.1⟩

end Signer

end LedgerGateway
