import LedgerGateway.Curve.Ecdsa
import LedgerGateway.Key.Structure
import LedgerGateway.Pem.KeyText
import LedgerGateway.Text.Utf8

/-!
# Signing

A signer holds the secret of a private key. It is read from a PEM text in one of two forms
(`Signer.ofPem`) and signs digests (`Signer.sign`). Which digest of a message is signed is a matter
of choice (`HashAlgorithm`).
-/

namespace LedgerGateway

/-- How a message is hashed before it is signed. -/
inductive HashAlgorithm where
  | sha256
  | sha384
deriving DecidableEq, Repr, Inhabited

namespace HashAlgorithm

def digest : HashAlgorithm → Bytes → Bytes
  | sha256 => Hash.sha256.digest
  | sha384 => Hash.sha384.digest

def name : HashAlgorithm → String
  | sha256 => "Sha256"
  | sha384 => "Sha384"

end HashAlgorithm

/-- What keeps a private key from being read. -/
inductive KeyFault where
  /-- The bytes are not text. -/
  | notText
  /-- The text is not that of a private key on the curve P-256. -/
  | unsupported
deriving DecidableEq, Repr

/-- The text of a fault. What the long form lacks in particular is not said. -/
def KeyFault.message : KeyFault → String
  | notText => "PEM is not valid UTF-8"
  | unsupported => "unsupported P-256 key"

structure Signer where
  secret : Key.Secret
deriving DecidableEq

namespace Signer

/-- What a text calls a key in the long form. -/
def longLabel : String := "PRIVATE KEY"

/-- What a text calls a key in the short form. -/
def shortLabel : String := "EC PRIVATE KEY"

/-- The secret in the PEM text of a key. -/
def secretOfPem? (pem : Bytes) : Option Key.Secret :=
  match (Pem.readKeyText longLabel pem).bind Key.ofPkcs8? with
  | some s => some s
  | none => (Pem.readKeyText shortLabel pem).bind Key.ofSec1?

def ofPem (pem : Bytes) : Except KeyFault Signer :=
  match Text.decodeUtf8? pem with
  | none => .error .notText
  | some _ =>
    match secretOfPem? pem with
    | some s => .ok ⟨s⟩
    | none => .error .unsupported

def sign? (signer : Signer) (digest : Bytes) : Option Bytes :=
  (Curve.Ecdsa.sign? signer.secret digest).map Curve.Ecdsa.Signature.toBytes

def verifyingKey (signer : Signer) : Curve.P256.Point :=
  signer.secret.publicKey

/-- A signer shows nothing of itself. -/
instance : ToString Signer where
  toString _ := "Signer \x7b .. \x7d"

end Signer

end LedgerGateway
