import LedgerGateway.Proofs.Asn1.Writing
import LedgerGateway.X509.Certificate

/-!
# What stands behind an element

An element is read off the front of bytes, by either set of rules.  What stands behind it is not
looked at: where more bytes follow, the same element is read and more is left
(`Asn1.Reads.read_append`).  A certificate is one element, so nothing behind it matters either
(`X509.isCertificate_append`).
-/

namespace LedgerGateway

namespace Asn1

variable {form : Form} {b rest : Bytes} {m n left : Nat}

/-- What one more byte of the number of a tag does. -/
theorem exists_readNumber_cons (n left : Nat) (x : UInt8) :
    ∃ next, ∀ rest : Bytes, readNumber n (left + 1) (x :: rest) =
      if x < 128 then some ⟨next, rest, Nat.lt_succ_self _⟩
      else (readNumber next left rest).bind fun r =>
        some ⟨r.value, r.rest, Nat.lt_succ_of_lt r.shorter⟩ :=
  ⟨_, fun _ => rfl⟩

theorem Reads.readNumber_append (h : Reads (readNumber n left b) m rest) (extra : Bytes) :
    Reads (readNumber n left (b ++ extra)) m (rest ++ extra) := by
  induction left generalizing n b with
  | zero =>
    obtain ⟨_, h⟩ := h
    cases h
  | succ left ih =>
    obtain ⟨_, h⟩ := h
    cases b with
    | nil => cases h
    | cons x b =>
      obtain ⟨next, hcons⟩ := exists_readNumber_cons n left x
      rw [hcons] at h
      rw [List.cons_append, hcons]
      by_cases hx : x < 128
      · rw [if_pos hx] at h ⊢
        cases h
        exact ⟨_, rfl⟩
      · rw [if_neg hx] at h ⊢
        obtain ⟨r, hr, h⟩ := Option.bind_eq_some_iff.mp h
        cases h
        obtain ⟨hshorter, hmore⟩ := ih ⟨r.shorter, hr⟩
        simp only [hmore, Option.bind_some]
        exact ⟨_, rfl⟩

theorem Reads.readIdentifier_append {v : UInt8 × Nat} (h : Reads (readIdentifier form b) v rest)
    (extra : Bytes) : Reads (readIdentifier form (b ++ extra)) v (rest ++ extra) := by
  obtain ⟨_, h⟩ := h
  cases b with
  | nil => cases h
  | cons x b =>
    rw [List.cons_append]
    by_cases hx : x.toNat % 32 < 31
    · rw [readIdentifier_cons form hx] at h ⊢
      cases h
      exact ⟨_, rfl⟩
    · cases form with
      | strict =>
        rw [readIdentifier, if_neg hx] at h
        cases h
      | lenient =>
        rw [readIdentifier, if_neg hx] at h ⊢
        obtain ⟨r, hr, h⟩ := Option.bind_eq_some_iff.mp h
        cases h
        obtain ⟨hshorter, hmore⟩ := Reads.readNumber_append ⟨r.shorter, hr⟩ extra
        simp only [Option.bind_eq_bind, hmore, Option.bind_some]
        exact ⟨_, rfl⟩

theorem Reads.readLength_append (h : Reads (readLength form b) n rest) (extra : Bytes) :
    Reads (readLength form (b ++ extra)) n (rest ++ extra) := by
  obtain ⟨_, h⟩ := h
  cases b with
  | nil => cases h
  | cons x b =>
    rw [readLength] at h
    by_cases hx : x < 128
    · rw [if_pos hx] at h
      cases h
      exact readLength_short form hx (rest ++ extra)
    · rw [if_neg hx] at h
      dsimp only at h
      split at h
      · cases h
      · rename_i hok
        simp only [Option.some.injEq, Reading.mk.injEq] at h
        obtain ⟨rfl, rfl⟩ := h
        simp only [not_or, Bool.not_eq_true', Bool.not_eq_false] at hok
        obtain ⟨hpos, hwidth, hallows⟩ := hok
        have htake : (b.take (x.toNat - 128)).length = x.toNat - 128 := by
          rw [List.length_take]
          omega
        have hsplit : b ++ extra =
            b.take (x.toNat - 128) ++ (b.drop (x.toNat - 128) ++ extra) := by
          rw [← List.append_assoc, List.take_append_drop]
        rw [List.cons_append, hsplit]
        exact readLength_long form hx (by omega) htake.symm (by rw [htake]; exact hallows) _

/-- **What stands behind an element is not looked at.** -/
theorem Reads.read_append {e : Element} (h : Reads (read form b) e rest) (extra : Bytes) :
    Reads (read form (b ++ extra)) e (rest ++ extra) := by
  obtain ⟨_, h⟩ := h
  obtain ⟨identifier, hidentifier, h⟩ := Option.bind_eq_some_iff.mp h
  obtain ⟨length, hlength, h⟩ := Option.bind_eq_some_iff.mp h
  split at h
  · rename_i hle
    cases h
    obtain ⟨_, hidentifier'⟩ := Reads.readIdentifier_append ⟨identifier.shorter, hidentifier⟩ extra
    obtain ⟨_, hlength'⟩ := Reads.readLength_append ⟨length.shorter, hlength⟩ extra
    have hle' : length.value ≤ (length.rest ++ extra).length := by
      rw [List.length_append]
      omega
    rw [read]
    simp only [Option.bind_eq_bind, hidentifier', Option.bind_some, hlength', hle', if_true,
      List.take_append_of_le_length hle, List.drop_append_of_le_length hle]
    exact ⟨_, rfl⟩
  · cases h

end Asn1

namespace X509

variable {b : Bytes}

theorem readLike_append (h : (Asn1.read .lenient b).isSome) (identifier : UInt8) (extra : Bytes) :
    readLike identifier (b ++ extra) =
      (readLike identifier b).map fun (content, rest) => (content, rest ++ extra) := by
  obtain ⟨e, he⟩ := Option.isSome_iff_exists.mp h
  obtain ⟨_, hmore⟩ := Asn1.Reads.read_append ⟨e.shorter, he⟩ extra
  simp only [readLike, he, hmore, Option.bind_eq_bind, Option.bind_some]
  split <;> rfl

/-- **Nothing behind a certificate matters**, nor behind another element that there is instead. -/
theorem isCertificate_append (h : (Asn1.read .lenient b).isSome) (extra : Bytes) :
    isCertificate (b ++ extra) = isCertificate b := by
  have hsigned : readSigned (b ++ extra) = readSigned b := by
    rw [readSigned, readSigned, readLike_append h]
    cases readLike Asn1.sequence b <;> rfl
  rw [isCertificate, hsigned, isCertificate]

end X509

end LedgerGateway
