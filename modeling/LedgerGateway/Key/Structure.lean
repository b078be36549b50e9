import LedgerGateway.Asn1.Element
import LedgerGateway.Key.Secret

/-!
# The structure of private keys

A private key comes in one of two forms. In the short form (`ofSec1?`) it is a row of elements: the
version one, the secret, the curve and the public key, of which the last two may be missing. In the
long form (`ofPkcs8?`) the short form is wrapped: before it come a version and the kind of key, and
behind it a public key, if the version announces one, and whatever else.

The kind of key in the long form has to be the curve P-256. The curve in the short form may be any,
as long as it is named; the public key there has to be the one that belongs to the secret.
-/

namespace LedgerGateway.Key

open Asn1 (Element)

/-- The identifier of the curve P-256. -/
def curveName : Bytes := [0x2A, 0x86, 0x48, 0xCE, 0x3D, 0x03, 0x01, 0x07]

/-- The identifier of keys for elliptic curves. -/
def ellipticCurveKey : Bytes := [0x2A, 0x86, 0x48, 0xCE, 0x3D, 0x02, 0x01]

/-- Whether the numbers behind the first byte of an object identifier are well formed. Each ends
with the first byte below 0x80, and a byte behind four of the same number is below 16. `width` bytes
of a number are read. -/
def areArcs (width : Nat) : Bytes → Bool
  | [] => width == 0
  | x :: rest => (width < 4 || x < 16) && areArcs (if x < 0x80 then 0 else width + 1) rest

def isObjectName (b : Bytes) : Bool :=
  3 ≤ b.length && b.length ≤ 39 && b.head?.any (·.toNat < 120) && areArcs 0 b.tail

def namesCurve (e : Element) : Bool :=
  match Asn1.readWhole .strict Asn1.objectIdentifier e.content with
  | some name => isObjectName name
  | none => false

/-- Whether an element holds the public key of a secret, in one of its two spellings. -/
def holdsPublicKey (s : Secret) (e : Element) : Bool :=
  match (Asn1.readWhole .strict Asn1.bitString e.content).bind Asn1.wholeBits? with
  | some bits => bits == s.publicKey.uncompressed || bits == s.publicKey.compressed
  | none => false

def isContext (number : Nat) (e : Element) : Bool :=
  e.number == number &&
    (e.identifier == Asn1.context (UInt8.ofNat number) ||
      e.identifier == Asn1.contextPrimitive (UInt8.ofNat number))

/-- Whether what is left of the short form is a public key, or nothing. Elements that the context
numbers zero are passed over. -/
def endsWithPublicKey (s : Secret) : List Element → Bool
  | [] => true
  | e :: rest =>
    if isContext 0 e then endsWithPublicKey s rest
    else e.identifier == Asn1.context 1 && rest.isEmpty && holdsPublicKey s e

/-- Whether what stands behind the secret in the short form is in order. -/
def areCurveAndPublicKey (s : Secret) : List Element → Bool
  | [] => true
  | e :: rest =>
    if isContext 0 e then
      e.identifier == Asn1.context 0 && namesCurve e && endsWithPublicKey s rest
    else endsWithPublicKey s (e :: rest)

/-- The elements of a row that takes up all the bytes. -/
def readRow (b : Bytes) : Option (List Element) :=
  (Asn1.readWhole .strict Asn1.sequence b).bind (Asn1.readAll .strict)

/-- Reads a key in the short form. -/
def ofSec1? (b : Bytes) : Option Secret := do
  match ← readRow b with
  | version :: secret :: rest =>
    guard (version == ⟨Asn1.integer, 2, [1]⟩ && secret.identifier == Asn1.octetString)
    let s ← Secret.ofBytes? secret.content
    guard (areCurveAndPublicKey s rest)
    return s
  | _ => none

/-- The kind of key in the long form. -/
def keyKind : Bytes :=
  Asn1.write Asn1.objectIdentifier ellipticCurveKey ++
    Asn1.write Asn1.objectIdentifier curveName

/-- Identifiers that stand for something wherever they stand. -/
def universalIdentifiers : Bytes :=
  [0x01, 0x02, 0x03, 0x04, 0x05, 0x06, 0x09, 0x0A, 0x0C, 0x12, 0x13, 0x14, 0x15, 0x16, 0x17, 0x18,
    0x1A, 0x1E, 0x30, 0x31]

def isKnown (e : Element) : Bool :=
  0x40 ≤ e.identifier || universalIdentifiers.contains e.identifier

/-- Whether an element is one that the context numbers, with one element in it. -/
def isAddition (e : Element) : Bool :=
  0xA0 ≤ e.identifier && e.identifier < 0xC0 &&
    match Asn1.readAll .strict e.content with
    | some [inner] => isKnown inner
    | _ => false

/-- Whether what stands behind the short form is in order. It begins with a public key exactly if
the version announces one, and elements that the context numbers zero are passed over before it. -/
def areAdditions (hasPublicKey : Bool) : List Element → Bool
  | [] => !hasPublicKey
  | e :: rest =>
    if isContext 0 e then areAdditions hasPublicKey rest
    else if isContext 1 e then
      hasPublicKey && e.identifier == Asn1.contextPrimitive 1 &&
        (Asn1.wholeBits? e.content).isSome && rest.all isAddition
    else !hasPublicKey && (e :: rest).all isAddition

def announcesPublicKey? (e : Element) : Option Bool :=
  if e == ⟨Asn1.integer, 2, [0]⟩ then some false
  else if e == ⟨Asn1.integer, 2, [1]⟩ then some true
  else none

/-- Reads a key in the long form. -/
def ofPkcs8? (b : Bytes) : Option Secret := do
  match ← readRow b with
  | version :: kind :: key :: rest =>
    let hasPublicKey ← announcesPublicKey? version
    guard (kind.identifier == Asn1.sequence && kind.content == keyKind &&
      key.identifier == Asn1.octetString && areAdditions hasPublicKey rest)
    ofSec1? key.content
  | _ => none

/-- Writes a secret in the short form, with the name of the curve and with the public key, or
without. -/
def toSec1 (s : Secret) (withCurve withPublicKey : Bool) : Bytes :=
  Asn1.write Asn1.sequence <|
    Asn1.writeNatural 1 ++ Asn1.write Asn1.octetString s.toBytes ++
      (if withCurve then
        Asn1.write (Asn1.context 0) (Asn1.write Asn1.objectIdentifier curveName) else []) ++
      if withPublicKey then
        Asn1.write (Asn1.context 1) (Asn1.write Asn1.bitString (0 :: s.publicKey.uncompressed))
      else []

end LedgerGateway.Key
