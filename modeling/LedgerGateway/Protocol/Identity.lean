import LedgerGateway.Wire.Message

/-!
# Identities on the wire

An identity is known to the ledger by the organisation that vouches for it and by its certificate.
-/

namespace LedgerGateway.Protocol

/-- An organisation and the certificate of one of its members. -/
structure SerializedIdentity where
  /-- The organisation. -/
  mspid : String := ""
  /-- The certificate as PEM text. -/
  idBytes : Bytes := []
deriving DecidableEq, Repr

def SerializedIdentity.fields : Wire.Fields :=
  .scalar (.plain 1 "mspid") .string <|
  .scalar (.plain 2 "id_bytes") .bytes <|
  .nil

instance : Wire.Message SerializedIdentity where
  name := "msp.SerializedIdentity"
  typeName := "SerializedIdentity"
  fields := SerializedIdentity.fields
  toRecord m := (m.mspid, m.idBytes, ())
  ofRecord := fun (mspid, idBytes, ()) =>
    ⟨mspid, idBytes⟩
  ofRecord_toRecord _ := rfl
  toRecord_ofRecord _ := rfl

end LedgerGateway.Protocol
