import LedgerGateway.Identity
import LedgerGateway.Proofs.Asn1.Behind
import LedgerGateway.Proofs.Client.Stages
import LedgerGateway.Proofs.Pem.FirstBlock
import LedgerGateway.Proofs.Wire.RoundTrip

/-!
# An identity is the text it came as

Of the text of a certificate only the first block is looked at, and of what it holds only the first
element.  Where the block is one of a certificate, that decides whether the text is accepted; where
it is called something else, the text is refused for its name.  What is accepted is kept as it came,
with all that stands around the block, and the maker of a message is named by it: the bytes read
back as the organisation and that text (`Identity.ofPem_isText`).
-/

namespace LedgerGateway

open Pem (Block)

variable {label : String} {content b : Bytes}

theorem checkCertificate_of_first (h : Block.first b = .ok ⟨label, content⟩) :
    checkCertificate b =
      if label ≠ Pem.certificateLabel then .error (.label label)
      else if X509.isCertificate content then .ok () else .error .malformed := by
  rw [checkCertificate, h]
  rfl

namespace Identity

theorem ofPem_of_checkCertificate (h : checkCertificate b = .ok ()) (mspId : String) :
    ofPem mspId b = .ok ⟨mspId, b⟩ := by
  rw [ofPem, h]
  rfl

/-- The bytes that name the maker of a message say who it is. -/
theorem decode_creator {i : Identity} (hsize : i.creator.length < Wire.sizeLimit) :
    Wire.decode i.creator =
      .ok ({ mspid := i.mspId, idBytes := i.certificate } : Protocol.SerializedIdentity) :=
  Wire.decode_encode hsize

/-- **An identity is the text it came as, and only the first block decides about it.**  A block of
the name of a certificate is accepted exactly if its content is one, whatever stands behind the
element in the content and behind the block in the text; a block of another name is refused.  An
accepted text is kept, and sent so that it reads back. -/
theorem ofPem_isText (h : Block.IsText label content b) (hdash : '-' ∉ label.toList)
    (hlineFeed : '\n' ∉ label.toList) :
    (label = Pem.certificateLabel →
      checkCertificate b =
        if X509.isCertificate content then .ok () else .error .malformed) ∧
    (label ≠ Pem.certificateLabel → checkCertificate b = .error (.label label)) ∧
    (∀ front extra, content = front ++ extra → (Asn1.read .lenient front).isSome →
      X509.isCertificate content = X509.isCertificate front) ∧
    ∀ mspId, checkCertificate b = .ok () →
      ofPem mspId b = .ok ⟨mspId, b⟩ ∧
      ((creator ⟨mspId, b⟩).length < Wire.sizeLimit → Wire.decode (creator ⟨mspId, b⟩) =
        .ok ({ mspid := mspId, idBytes := b } : Protocol.SerializedIdentity)) := by
  have hcheck := checkCertificate_of_first (h.first_eq hdash hlineFeed)
  refine ⟨fun heq => ?_, fun hne => ?_, ?_, fun mspId hok => ?_⟩
  · rw [hcheck, if_neg (not_not_intro heq)]
  · rw [hcheck, if_pos hne]
  · rintro front extra rfl hread
    exact X509.isCertificate_append hread extra
  · exact ⟨ofPem_of_checkCertificate hok mspId, decode_creator⟩

/-- A certificate with two bytes behind it. -/
def sampleContent : Bytes := Client.emptyCertificate ++ [0x00, 0x01]

/-- A block with a line before it, an empty line in it, and bytes behind it that are no text. -/
def sampleText (label : String) : Bytes :=
  Block.line "subject=CN = user1" ++
    (Block.line ("-----BEGIN " ++ label ++ "-----" ++ "\r") ++
      (Block.line (Block.digitText sampleContent ++ " \r") ++ Block.line "\t" ++
        (Block.line ("-----END " ++ "CERTIFICATE-----") ++ [0xFF, 0x2D])))

theorem isText_sampleText (label : String) :
    Block.IsText label sampleContent (sampleText label) := by
  have hpreamble := Block.IsPreamble.cons (s := "subject=CN = user1") (by decide) (by decide) .nil
  have hblank : Block.IsLooselyCut ("" ++ "") (Block.line ("" ++ "\t") ++ []) :=
    .cons (by simp [Text.isBlank]) .nil
  have hcut : Block.IsLooselyCut (Block.digitText sampleContent ++ ("" ++ ""))
      (Block.line (Block.digitText sampleContent ++ " \r") ++ (Block.line ("" ++ "\t") ++ [])) :=
    .cons (by simp [Text.isBlank]) hblank
  rw [List.append_nil] at hpreamble
  rw [String.append_empty, String.append_empty, String.empty_append, List.append_nil] at hcut
  exact .intro hpreamble (by decide) hcut (by decide)

theorem ofPem_sampleText :
    ofPem "Org1MSP" (sampleText "CERTIFICATE") = .ok ⟨"Org1MSP", sampleText "CERTIFICATE"⟩ ∧
    Wire.decode (creator ⟨"Org1MSP", sampleText "CERTIFICATE"⟩) =
      .ok ({ mspid := "Org1MSP", idBytes := sampleText "CERTIFICATE" } :
        Protocol.SerializedIdentity) ∧
    checkCertificate (sampleText "X509 CRL") = .error (.label "X509 CRL") := by
  obtain ⟨hcheck, -, hbehind, hkept⟩ :=
    ofPem_isText (isText_sampleText "CERTIFICATE") (by decide) (by decide)
  obtain ⟨-, hother, -⟩ := ofPem_isText (isText_sampleText "X509 CRL") (by decide) (by decide)
  have hcertificate : X509.isCertificate Client.emptyCertificate = true := by decide +kernel
  have hread : (Asn1.read .lenient Client.emptyCertificate).isSome := by decide +kernel
  have hok := hcheck rfl
  rw [hbehind _ _ rfl hread, if_pos hcertificate] at hok
  obtain ⟨hnew, hdecode⟩ := hkept "Org1MSP" hok
  exact ⟨hnew, hdecode (by decide +kernel), hother (by decide)⟩

end Identity

end LedgerGateway
