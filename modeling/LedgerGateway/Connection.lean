import LedgerGateway.Configuration
import LedgerGateway.Endpoint
import LedgerGateway.Error
import LedgerGateway.Pem.Bundle
import LedgerGateway.X509.TrustAnchor

/-!
# Connections

A connection knows where to call and which name the peer there has to prove (`Connection`). Opening
one calls nobody yet. It checks that the certificates to trust are such, and that the address can be
called.
-/

namespace LedgerGateway

/-- Where to call, and which name the peer has to prove. -/
structure Connection where
  endpoint : String
  serverName : String
deriving DecidableEq, Repr

namespace Connection

def isTrustedBundle (pem : Bytes) : Bool :=
  (Pem.certificates pem).any (·.all X509.isTrustAnchor)

/-- The connection to the peer of a configuration, trusting the certificates of a PEM text. -/
def connect (c : Configuration) (pem : Bytes) : Result Connection := do
  (checkCertificate pem).mapError .certificate
  if !Endpoint.isUri c.peerAddress then .error (.address .invalidUri)
  else if !isTrustedBundle pem || !Endpoint.isServerName c.serverName then
    .error (.address .unprovable)
  else return ⟨c.endpoint, c.serverName⟩

end Connection

end LedgerGateway
