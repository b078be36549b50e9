import LedgerGateway.Pem.FirstBlock
import LedgerGateway.Protocol.Identity
import LedgerGateway.Wire.Message
import LedgerGateway.X509.Certificate

/-!
# Identities

A client is known by its organisation and its certificate (`Identity`). The certificate comes as PEM
text and is kept and sent as it came; that there is a certificate in it is checked first
(`checkCertificate`).
-/

namespace LedgerGateway

/-- What keeps a PEM text from being that of a certificate. -/
inductive CertificateFault where
  /-- The text has no block that can be read. -/
  | block (fault : Pem.BlockFault)
  /-- The first block is called something else. -/
  | label (found : String)
  /-- What the block holds is not a certificate. -/
  | malformed
deriving DecidableEq, Repr

def CertificateFault.message : CertificateFault → String
  | block fault => "bad PEM: " ++ fault.message
  | label found => "expected " ++ Pem.certificateLabel ++ " block, found " ++ found
  | malformed => "not an X.509 certificate"

/-- Checks that the first block of a PEM text is a certificate. -/
def checkCertificate (pem : Bytes) : Except CertificateFault Unit := do
  let block ← (Pem.Block.first pem).mapError .block
  if block.label ≠ Pem.certificateLabel then .error (.label block.label)
  else if X509.isCertificate block.content then return ()
  else .error .malformed

structure Identity where
  mspId : String
  /-- The PEM text of the certificate. -/
  certificate : Bytes
deriving DecidableEq, Repr

namespace Identity

/-- The member of an organisation that a certificate is for. -/
def ofPem (mspId : String) (pem : Bytes) : Except CertificateFault Identity := do
  checkCertificate pem
  return ⟨mspId, pem⟩

def toMessage (i : Identity) : Protocol.SerializedIdentity :=
  { mspid := i.mspId, idBytes := i.certificate }

/-- The bytes by which the maker of a message is named. -/
def creator (i : Identity) : Bytes :=
  Wire.encode i.toMessage

end Identity

end LedgerGateway
