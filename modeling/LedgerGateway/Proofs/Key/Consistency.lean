import LedgerGateway.Proofs.Text.Lossy
import LedgerGateway.Signer
import Mathlib.Data.List.Basic
import Mathlib.Data.Option.Basic

/-!
# What the file of a key says about its curve and its public key

The file of a private key names its curve in up to two places: in the kind of key of the long form,
and in the parameters of the short form (`Signer.NamesCurve`).  And it carries the public key in up
to two places: in the short form, and in the wrapper around it (`Signer.CarriesPublicKey`).  The
file is consistent if all of them say the same, that is, if they belong to the secret as a key on
the curve P-256 (`Signer.IsConsistent`).

Reading looks at one place of either sort.  The kind of key in the long form and the public key in
the short form of an accepted file are right; the parameters of the short form may name any curve,
and the public key in the wrapper may be anyone's.  So an accepted file is consistent exactly if
those two are right (`Signer.isConsistent_iff`), and not all accepted files are
(`Signer.exists_not_isConsistent`).
-/

namespace LedgerGateway

open Asn1 (Element)

/-! ### Accepted structures -/

namespace Key

theorem ofSec1?_eq_some {b : Bytes} {s : Secret} (h : ofSec1? b = some s) :
    ∃ version secret rest, readRow b = some (version :: secret :: rest) ∧
      areCurveAndPublicKey s rest = true := by
  obtain ⟨row, hrow, h⟩ := Option.bind_eq_some_iff.mp h
  split at h
  · rename_i version secret rest
    obtain ⟨_, _, h⟩ := Option.bind_eq_some_iff.mp h
    obtain ⟨s', _, h⟩ := Option.bind_eq_some_iff.mp h
    obtain ⟨_, hbehind, h⟩ := Option.bind_eq_some_iff.mp h
    cases h
    exact ⟨version, secret, rest, hrow, (Option.guard_eq_some' _).mp hbehind⟩
  · cases h

theorem ofPkcs8?_eq_some {b : Bytes} {s : Secret} (h : ofPkcs8? b = some s) :
    ∃ version kind key rest, readRow b = some (version :: kind :: key :: rest) ∧
      kind.content = keyKind ∧ ofSec1? key.content = some s := by
  obtain ⟨row, hrow, h⟩ := Option.bind_eq_some_iff.mp h
  split at h
  · rename_i version kind key rest
    obtain ⟨_, _, h⟩ := Option.bind_eq_some_iff.mp h
    obtain ⟨_, hparts, h⟩ := Option.bind_eq_some_iff.mp h
    have hkind := (Option.guard_eq_some' _).mp hparts
    simp only [Bool.and_eq_true, beq_iff_eq] at hkind
    exact ⟨version, kind, key, rest, hrow, hkind.1.1.2, h⟩
  · cases h

theorem isContext_zero_of_identifier {e : Element} (h : e.identifier = Asn1.context 1) :
    isContext 0 e = false := by
  simp [isContext, h, Asn1.context, Asn1.contextPrimitive]

/-- Every public key in what is left of the short form is compared with the secret. -/
theorem holdsPublicKey_of_mem {s : Secret} {e : Element}
    (hidentifier : e.identifier = Asn1.context 1) :
    ∀ {l : List Element}, endsWithPublicKey s l = true → e ∈ l → holdsPublicKey s e = true := by
  intro l
  induction l with
  | nil => intro _ hmem; cases hmem
  | cons a l ih =>
    intro h hmem
    unfold endsWithPublicKey at h
    split at h
    · rename_i hcontext
      rcases List.mem_cons.mp hmem with rfl | hmem
      · cases (isContext_zero_of_identifier hidentifier).symm.trans hcontext
      · exact ih h hmem
    · simp only [Bool.and_eq_true, List.isEmpty_iff] at h
      rw [h.1.2, List.mem_singleton] at hmem
      exact hmem ▸ h.2

theorem holdsPublicKey_of_mem_behind {s : Secret} {e : Element} {l : List Element}
    (hidentifier : e.identifier = Asn1.context 1) (h : areCurveAndPublicKey s l = true)
    (hmem : e ∈ l) : holdsPublicKey s e = true := by
  cases l with
  | nil => cases hmem
  | cons a l =>
    simp only [areCurveAndPublicKey] at h
    split at h
    · rename_i hcontext
      simp only [Bool.and_eq_true] at h
      rcases List.mem_cons.mp hmem with rfl | hmem
      · cases (isContext_zero_of_identifier hidentifier).symm.trans hcontext
      · exact holdsPublicKey_of_mem hidentifier h.2 hmem
    · exact holdsPublicKey_of_mem hidentifier h hmem

end Key

/-! ### Labels -/

namespace Pem

theorem exists_named_of_readKeyText {label : String} {b content : Bytes}
    (h : readKeyText label b = some content) :
    ∃ rest, behindPreamble? true b = some (ascii (label ++ "-----") ++ rest) := by
  obtain ⟨named, hnamed, h⟩ := Option.bind_eq_some_iff.mp h
  obtain ⟨rest, hrest, -⟩ := Option.bind_eq_some_iff.mp h
  rw [behind?, List.isPrefixOf?_eq_some_iff_append_eq] at hrest
  exact ⟨rest, hrest ▸ hnamed⟩

end Pem

namespace Signer

/-- A file has one label. -/
theorem readKeyText_label_unique {pem b c : Bytes} (h : Pem.readKeyText longLabel pem = some b)
    (h' : Pem.readKeyText shortLabel pem = some c) : False := by
  obtain ⟨rest, hlong⟩ := Pem.exists_named_of_readKeyText h
  obtain ⟨rest', hshort⟩ := Pem.exists_named_of_readKeyText h'
  have hlabels := congrArg List.head? (Option.some.inj (hlong.symm.trans hshort))
  have hlong : (Pem.ascii (longLabel ++ "-----")).head? = some 0x50 := by decide +kernel
  have hshort : (Pem.ascii (shortLabel ++ "-----")).head? = some 0x45 := by decide +kernel
  rw [List.head?_append, List.head?_append, hlong, hshort] at hlabels
  cases hlabels

/-! ### What a file says -/

/-- The file holds a key in the long form, which is this row of elements. -/
def HoldsLongForm (pem : Bytes) (row : List Element) : Prop :=
  ∃ b, Pem.readKeyText longLabel pem = some b ∧ Key.readRow b = some row

/-- The file holds a key in the short form, by itself or inside the long form, which is this row of
elements. -/
inductive HoldsShortForm (pem : Bytes) : List Element → Prop where
  | alone {b : Bytes} {row : List Element} : Pem.readKeyText shortLabel pem = some b →
      Key.readRow b = some row → HoldsShortForm pem row
  | wrapped {version kind key : Element} {rest row : List Element} :
      HoldsLongForm pem (version :: kind :: key :: rest) → Key.readRow key.content = some row →
      HoldsShortForm pem row

/-- Where a file names a curve. -/
inductive CurvePlace where
  /-- In the kind of key of the long form. -/
  | kind
  /-- In the parameters of the short form. -/
  | parameters
deriving DecidableEq, Repr

/-- Where a file carries a public key. -/
inductive PublicKeyPlace where
  /-- In the short form. -/
  | shortForm
  /-- Around the short form. -/
  | wrapper
deriving DecidableEq, Repr

inductive NamesCurve (pem : Bytes) : CurvePlace → Bytes → Prop where
  | kind {version kind algorithm curve : Element} {rest : List Element} :
      HoldsLongForm pem (version :: kind :: rest) →
      Asn1.readAll .strict kind.content = some [algorithm, curve] →
      curve.identifier = Asn1.objectIdentifier → NamesCurve pem .kind curve.content
  | parameters {version secret e : Element} {rest : List Element} {name : Bytes} :
      HoldsShortForm pem (version :: secret :: rest) → e ∈ rest →
      e.identifier = Asn1.context 0 →
      Asn1.readWhole .strict Asn1.objectIdentifier e.content = some name →
      NamesCurve pem .parameters name

/-- The file carries the public key that is spelled with these bytes. -/
inductive CarriesPublicKey (pem : Bytes) : PublicKeyPlace → Bytes → Prop where
  | shortForm {version secret e : Element} {rest : List Element} {bits : Bytes} :
      HoldsShortForm pem (version :: secret :: rest) → e ∈ rest →
      e.identifier = Asn1.context 1 →
      (Asn1.readWhole .strict Asn1.bitString e.content).bind Asn1.wholeBits? = some bits →
      CarriesPublicKey pem .shortForm bits
  | wrapper {version kind key e : Element} {rest : List Element} {bits : Bytes} :
      HoldsLongForm pem (version :: kind :: key :: rest) → e ∈ rest →
      e.identifier = Asn1.contextPrimitive 1 → Asn1.wholeBits? e.content = some bits →
      CarriesPublicKey pem .wrapper bits

/-- The bytes spell a point, with both coordinates or with one. -/
def Spells (bits : Bytes) (p : Curve.P256.Point) : Prop :=
  bits = p.uncompressed ∨ bits = p.compressed

instance (bits : Bytes) (p : Curve.P256.Point) : Decidable (Spells bits p) :=
  inferInstanceAs (Decidable (_ ∨ _))

/-- Every curve that the file names is P-256, and every public key that it carries is this one. -/
def IsConsistent (pem : Bytes) (publicKey : Curve.P256.Point) : Prop :=
  (∀ place name, NamesCurve pem place name → name = Key.curveName) ∧
    ∀ place bits, CarriesPublicKey pem place bits → Spells bits publicKey

/-! ### What is looked at -/

section Accepted

variable {pem : Bytes} {signer : Signer}

theorem secretOfPem?_of_ofPem (h : ofPem pem = .ok signer) :
    secretOfPem? pem = some signer.secret := by
  unfold ofPem at h
  split at h
  · cases h
  · split at h
    · rename_i hsecret
      cases h
      exact hsecret
    · cases h

theorem ofPem_of_secretOfPem? {s : Key.Secret} (hascii : ∀ x ∈ pem, x < 0x80)
    (h : secretOfPem? pem = some s) : ofPem pem = .ok ⟨s⟩ := by
  have htext := Text.decodeUtf8?_eq_some_iff.mpr (Text.encodeUtf8_of_ascii hascii).symm
  rw [ofPem, htext, h]

/-- An accepted file with the label of the long form is in the long form. -/
theorem ofPkcs8?_of_ofPem {b : Bytes} (h : ofPem pem = .ok signer)
    (hb : Pem.readKeyText longLabel pem = some b) : Key.ofPkcs8? b = some signer.secret := by
  have hsecret := secretOfPem?_of_ofPem h
  have hshort : Pem.readKeyText shortLabel pem = none :=
    Option.eq_none_iff_forall_not_mem.mpr fun _ => readKeyText_label_unique hb
  unfold secretOfPem? at hsecret
  rw [hb, hshort, Option.bind_some, Option.bind_none] at hsecret
  split at hsecret
  · rename_i hlong
    rw [hlong, hsecret]
  · cases hsecret

theorem ofSec1?_of_ofPem {b : Bytes} (h : ofPem pem = .ok signer)
    (hb : Pem.readKeyText shortLabel pem = some b) : Key.ofSec1? b = some signer.secret := by
  have hsecret := secretOfPem?_of_ofPem h
  have hlong : Pem.readKeyText longLabel pem = none :=
    Option.eq_none_iff_forall_not_mem.mpr fun _ h' => readKeyText_label_unique h' hb
  unfold secretOfPem? at hsecret
  rwa [hlong, hb] at hsecret

theorem kind_of_holdsLongForm {version kind : Element} {rest : List Element}
    (h : ofPem pem = .ok signer) (hform : HoldsLongForm pem (version :: kind :: rest)) :
    kind.content = Key.keyKind := by
  obtain ⟨b, hb, hrow⟩ := hform
  obtain ⟨_, _, _, _, hrow', hkind, -⟩ := Key.ofPkcs8?_eq_some (ofPkcs8?_of_ofPem h hb)
  cases hrow.symm.trans hrow'
  exact hkind

theorem areCurveAndPublicKey_of_holdsShortForm {version secret : Element} {rest : List Element}
    (h : ofPem pem = .ok signer) (hform : HoldsShortForm pem (version :: secret :: rest)) :
    Key.areCurveAndPublicKey signer.secret rest = true := by
  have hrest : ∀ {b : Bytes}, Key.ofSec1? b = some signer.secret →
      Key.readRow b = some (version :: secret :: rest) →
      Key.areCurveAndPublicKey signer.secret rest = true := by
    intro b hb hrow
    obtain ⟨_, _, _, hrow', hbehind⟩ := Key.ofSec1?_eq_some hb
    cases hrow.symm.trans hrow'
    exact hbehind
  cases hform with
  | alone hb hrow => exact hrest (ofSec1?_of_ofPem h hb) hrow
  | wrapped hlong hrow =>
    obtain ⟨b, hb, hlong⟩ := hlong
    obtain ⟨_, _, _, _, hlong', -, hkey⟩ := Key.ofPkcs8?_eq_some (ofPkcs8?_of_ofPem h hb)
    cases hlong.symm.trans hlong'
    exact hrest hkey hrow

theorem curveName_of_kind {name : Bytes} (h : ofPem pem = .ok signer)
    (hname : NamesCurve pem .kind name) : name = Key.curveName := by
  cases hname with
  | kind hform hkind _ =>
    have hparts : Asn1.readAll .strict Key.keyKind =
        some [⟨Asn1.objectIdentifier, 6, Key.ellipticCurveKey⟩,
          ⟨Asn1.objectIdentifier, 6, Key.curveName⟩] := by decide +kernel
    rw [kind_of_holdsLongForm h hform, hparts] at hkind
    cases hkind
    rfl

theorem spells_of_shortForm {bits : Bytes} (h : ofPem pem = .ok signer)
    (hbits : CarriesPublicKey pem .shortForm bits) : Spells bits signer.verifyingKey := by
  cases hbits with
  | shortForm hform hmem hidentifier hread =>
    have hholds := Key.holdsPublicKey_of_mem_behind hidentifier
      (areCurveAndPublicKey_of_holdsShortForm h hform) hmem
    unfold Key.holdsPublicKey at hholds
    rw [hread] at hholds
    simp only [Bool.or_eq_true, beq_iff_eq] at hholds
    exact hholds

/-- **An accepted file is consistent exactly if the two places are right that reading does not look
at.** -/
theorem isConsistent_iff (h : ofPem pem = .ok signer) :
    IsConsistent pem signer.verifyingKey ↔
      (∀ name, NamesCurve pem .parameters name → name = Key.curveName) ∧
      ∀ bits, CarriesPublicKey pem .wrapper bits → Spells bits signer.verifyingKey := by
  constructor
  · rintro ⟨hcurves, hkeys⟩
    exact ⟨hcurves .parameters, hkeys .wrapper⟩
  · rintro ⟨hcurve, hkey⟩
    refine ⟨fun place name hname => ?_, fun place bits hbits => ?_⟩
    · cases place with
      | kind => exact curveName_of_kind h hname
      | parameters => exact hcurve name hname
    · cases place with
      | shortForm => exact spells_of_shortForm h hbits
      | wrapper => exact hkey bits hbits

end Accepted

/-! ### Three files -/

theorem one_lt_order : 1 < Curve.P256.order := by decide

/-- The smallest secret, to which the generator belongs. -/
def one : Key.Secret := ⟨1, Nat.one_pos, one_lt_order⟩

/-- The file of a key in the short form that names the curve and carries the public key. -/
def completeFile : Bytes := Pem.writeKeyText shortLabel (Key.toSec1 one true true)

theorem isConsistent_completeFile :
    ofPem completeFile = .ok ⟨one⟩ ∧ IsConsistent completeFile one.publicKey := by
  have haccepted : ofPem completeFile = .ok ⟨one⟩ :=
    ofPem_of_secretOfPem? (by decide +kernel) (by decide +kernel)
  have hread : Pem.readKeyText shortLabel completeFile = some (Key.toSec1 one true true) := by
    decide +kernel
  have hlong : ∀ row, ¬ HoldsLongForm completeFile row := by
    rintro row ⟨b, hb, -⟩
    exact readKeyText_label_unique hb hread
  have hrow : Key.readRow (Key.toSec1 one true true) =
      some [⟨Asn1.integer, 2, [1]⟩, ⟨Asn1.octetString, 4, one.toBytes⟩,
        ⟨Asn1.context 0, 0, Asn1.write Asn1.objectIdentifier Key.curveName⟩,
        ⟨Asn1.context 1, 1,
          Asn1.write Asn1.bitString (0 :: one.publicKey.uncompressed)⟩] := by decide +kernel
  refine ⟨haccepted, (isConsistent_iff haccepted).mpr ⟨fun name hname => ?_, fun bits hbits => ?_⟩⟩
  · cases hname with
    | parameters hform hmem hidentifier hname =>
      cases hform with
      | wrapped hform _ => exact absurd hform (hlong _)
      | alone hb hform =>
        cases hread.symm.trans hb
        cases hrow.symm.trans hform
        have hcurve : Asn1.readWhole .strict Asn1.objectIdentifier
            (Asn1.write Asn1.objectIdentifier Key.curveName) = some Key.curveName := by
          decide +kernel
        simp only [List.mem_cons, List.not_mem_nil, or_false] at hmem
        rcases hmem with rfl | rfl
        · exact Option.some.inj (hname.symm.trans hcurve)
        · exact absurd hidentifier (by decide)
  · cases hbits with
    | wrapper hform _ _ _ => exact absurd hform (hlong _)

def five : Key.Secret := ⟨5, by decide, by decide⟩

/-- The curve secp256k1. -/
def otherCurve : Bytes := [0x2B, 0x81, 0x04, 0x00, 0x0A]

/-- A key in the short form whose parameters name another curve. -/
def otherCurveKey : Bytes :=
  Asn1.write Asn1.sequence <|
    Asn1.writeNatural 1 ++ Asn1.write Asn1.octetString five.toBytes ++
      Asn1.write (Asn1.context 0) (Asn1.write Asn1.objectIdentifier otherCurve)

/-- A key in the long form whose wrapper carries the generator, the public key of another secret. -/
def otherPublicKey : Bytes :=
  Asn1.write Asn1.sequence <|
    Asn1.writeNatural 1 ++ Asn1.write Asn1.sequence Key.keyKind ++
      Asn1.write Asn1.octetString (Key.toSec1 five false false) ++
      Asn1.write (Asn1.contextPrimitive 1) (0 :: Curve.P256.generator.uncompressed)

theorem namesCurve_otherCurveKey :
    NamesCurve (Pem.writeKeyText shortLabel otherCurveKey) .parameters otherCurve := by
  have hread : Pem.readKeyText shortLabel (Pem.writeKeyText shortLabel otherCurveKey) =
      some otherCurveKey := by decide +kernel
  have hrow : Key.readRow otherCurveKey =
      some [⟨Asn1.integer, 2, [1]⟩, ⟨Asn1.octetString, 4, five.toBytes⟩,
        ⟨Asn1.context 0, 0, Asn1.write Asn1.objectIdentifier otherCurve⟩] := by decide +kernel
  exact .parameters (.alone hread hrow) List.mem_cons_self rfl (by decide +kernel)

theorem carriesPublicKey_otherPublicKey :
    CarriesPublicKey (Pem.writeKeyText longLabel otherPublicKey) .wrapper
      Curve.P256.generator.uncompressed := by
  have hread : Pem.readKeyText longLabel (Pem.writeKeyText longLabel otherPublicKey) =
      some otherPublicKey := by decide +kernel
  have hrow : Key.readRow otherPublicKey =
      some [⟨Asn1.integer, 2, [1]⟩, ⟨Asn1.sequence, 16, Key.keyKind⟩,
        ⟨Asn1.octetString, 4, Key.toSec1 five false false⟩,
        ⟨Asn1.contextPrimitive 1, 1, 0 :: Curve.P256.generator.uncompressed⟩] := by decide +kernel
  exact .wrapper ⟨_, hread, hrow⟩ List.mem_cons_self rfl rfl

/-- The one file is accepted though it names another curve, the other though it carries another
public key. -/
theorem exists_not_isConsistent :
    (ofPem (Pem.writeKeyText shortLabel otherCurveKey) = .ok ⟨five⟩ ∧
      ¬ IsConsistent (Pem.writeKeyText shortLabel otherCurveKey) five.publicKey) ∧
    (ofPem (Pem.writeKeyText longLabel otherPublicKey) = .ok ⟨five⟩ ∧
      ¬ IsConsistent (Pem.writeKeyText longLabel otherPublicKey) five.publicKey) := by
  refine ⟨⟨ofPem_of_secretOfPem? (by decide +kernel) (by decide +kernel), fun h => ?_⟩,
    ⟨ofPem_of_secretOfPem? (by decide +kernel) (by decide +kernel), fun h => ?_⟩⟩
  · exact absurd (h.1 _ _ namesCurve_otherCurveKey) (by decide)
  · exact absurd (h.2 _ _ carriesPublicKey_otherPublicKey) (by decide +kernel)

end Signer

end LedgerGateway
