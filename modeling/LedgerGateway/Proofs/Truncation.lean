import LedgerGateway.Proofs.Identity
import LedgerGateway.Proofs.Key.Forms
import LedgerGateway.Proofs.Pem.Truncation

/-!
# Credentials that are cut off

A credential that was written only in part is not taken for a whole one (`refuses_truncated`).  The
text of a certificate is refused wherever it ends before the marker that closes its first block, and
the text of a key wherever it ends before the end of its last line.
-/

namespace LedgerGateway

open Pem (Block ascii LacksLineEnd)

variable {b p : Bytes}

theorem checkCertificate_of_error {fault : Pem.BlockFault} (h : Block.first b = .error fault) :
    checkCertificate b = .error (.block fault) := by
  rw [checkCertificate, h]
  rfl

theorem exists_first_of_checkCertificate (h : checkCertificate b = .ok ()) :
    ∃ block, Block.first b = .ok block := by
  cases hfirst : Block.first b with
  | error fault => cases h.symm.trans (checkCertificate_of_error hfirst)
  | ok block => exact ⟨block, rfl⟩

namespace Signer

theorem dash_not_mem_labels : 0x2D ∉ ascii longLabel ∧ 0x2D ∉ ascii shortLabel := by decide

/-- What is accepted is the text of a key, under one of two labels. -/
theorem exists_readKeyText_of_ofPem {signer : Signer} (h : ofPem b = .ok signer) :
    ∃ label content, 0x2D ∉ ascii label ∧ Pem.readKeyText label b = some content := by
  have hsecret := secretOfPem?_of_ofPem h
  unfold secretOfPem? at hsecret
  split at hsecret
  · rename_i hlong
    obtain ⟨content, hcontent, -⟩ := Option.bind_eq_some_iff.mp hlong
    exact ⟨longLabel, content, dash_not_mem_labels.1, hcontent⟩
  · obtain ⟨content, hcontent, -⟩ := Option.bind_eq_some_iff.mp hsecret
    exact ⟨shortLabel, content, dash_not_mem_labels.2, hcontent⟩

/-- What `writeKeyText` writes is accepted. -/
theorem ofPem_writeKeyText (s : Key.Secret) (withCurve withPublicKey : Bool) :
    ofPem (Pem.writeKeyText shortLabel (Key.toSec1 s withCurve withPublicKey)) = .ok ⟨s⟩ := by
  have htext := Pem.isKeyText_writeKeyText shortLabel
    (show Key.toSec1 s withCurve withPublicKey ≠ [] from List.cons_ne_nil _ _)
  refine ofPem_of_secretOfPem? (htext.lt (by decide +kernel)) ?_
  rw [secretOfPem?_short htext.readKeyText_eq, Key.ofSec1?_toSec1]

end Signer

/-- **No part of a credential is taken for the whole.**  In the text of a certificate that is accepted
there is a marker that closes the first block, and wherever such a text ends before it is complete,
there is no block to be read.  A text of a key is refused wherever it ends before its last line
does. -/
theorem refuses_truncated :
    (∀ {b : Bytes}, checkCertificate b = .ok () →
      (∃ front rest, b = front ++ (ascii "-----END " ++ rest) ∧ Block.IsOpened front) ∧
      ∀ {front rest p : Bytes}, b = front ++ (ascii "-----END " ++ rest) → Block.IsOpened front →
        p <+: front ++ ascii "-----END " → p ≠ front ++ ascii "-----END " →
        ∃ fault, checkCertificate p = .error (.block fault)) ∧
    ∀ {b p : Bytes} {signer : Signer}, Signer.ofPem b = .ok signer → p <+: b → p ≠ b →
      ¬ LacksLineEnd p b → ∃ fault, Signer.ofPem p = .error fault := by
  constructor
  · intro b haccepted
    obtain ⟨block, hblock⟩ := exists_first_of_checkCertificate haccepted
    refine ⟨Block.exists_isOpened_of_first hblock, ?_⟩
    intro front rest p _ hopened hp hne
    obtain ⟨fault, hfault⟩ := Block.first_of_prefix hopened hp hne
    exact ⟨fault, checkCertificate_of_error hfault⟩
  · intro b p signer haccepted hp hne hlacks
    cases hpart : Signer.ofPem p with
    | error fault => exact ⟨fault, rfl⟩
    | ok signer' =>
      obtain ⟨label, content, hlabel, hcontent⟩ := Signer.exists_readKeyText_of_ofPem haccepted
      obtain ⟨label', content', hlabel', hcontent'⟩ := Signer.exists_readKeyText_of_ofPem hpart
      exact absurd (Pem.lacksLineEnd_of_readKeyText hlabel hlabel' hcontent hcontent' hp hne) hlacks

theorem refuses_truncated_sample :
    (checkCertificate (Identity.sampleText "CERTIFICATE") = .ok () ∧
      ∃ front rest, Identity.sampleText "CERTIFICATE" = front ++ (ascii "-----END " ++ rest) ∧
        ∃ fault, checkCertificate (front ++ ascii "-----END") = .error (.block fault)) ∧
    ∃ front, Pem.writeKeyText Signer.shortLabel (Key.toSec1 Signer.one true true) =
        front ++ ascii "-----END EC PRIVATE KEY-----\n" ∧
      Signer.ofPem (front ++ ascii "-----END EC PRIVATE KEY-----\n") = .ok ⟨Signer.one⟩ ∧
      ∃ fault, Signer.ofPem (front ++ ascii "-----END EC PRIVATE KEY--") = .error fault := by
  constructor
  · have hfirst := (Identity.isText_sampleText "CERTIFICATE").first_eq (by decide) (by decide)
    have haccepted : checkCertificate (Identity.sampleText "CERTIFICATE") = .ok () := by
      rw [checkCertificate_of_first hfirst, if_neg (by decide)]
      exact if_pos (by decide +kernel)
    obtain ⟨⟨front, rest, hsplit, hopened⟩, hrefused⟩ := refuses_truncated.1 haccepted
    have hshort : ascii "-----END" ≠ ascii "-----END " := by decide
    refine ⟨haccepted, front, rest, hsplit, hrefused hsplit hopened ?_ ?_⟩
    · exact (List.prefix_append_right_inj front).mpr ⟨ascii " ", by decide⟩
    · exact fun heq => hshort (List.append_cancel_left heq)
  · have haccepted := Signer.ofPem_writeKeyText Signer.one true true
    obtain ⟨front, hfront⟩ : ∃ front, Pem.writeKeyText Signer.shortLabel
        (Key.toSec1 Signer.one true true) = front ++ ascii "-----END EC PRIVATE KEY-----\n" :=
      ⟨_, rfl⟩
    rw [hfront] at haccepted
    refine ⟨front, hfront, haccepted, ?_⟩
    have hshort : ascii "-----END EC PRIVATE KEY--" ≠ ascii "-----END EC PRIVATE KEY-----\n" := by
      decide
    refine refuses_truncated.2 haccepted ?_ ?_ ?_
    · exact (List.prefix_append_right_inj _).mpr ⟨ascii "---\n", by decide⟩
    · exact fun heq => hshort (List.append_cancel_left heq)
    · intro hlacks
      have hle := hlacks.length_le
      have hlast : (ascii "-----END EC PRIVATE KEY-----\n").length = 29 := by decide
      have hpart : (ascii "-----END EC PRIVATE KEY--").length = 25 := by decide
      rw [List.length_append, List.length_append, hlast, hpart] at hle
      omega

end LedgerGateway
