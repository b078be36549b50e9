import LedgerGateway.X509.Time

/-!
# Certificates

`isCertificate` tells whether bytes begin with an X.509 certificate. Only its structure is looked
at: the parts and their order, that the two points in time are real ones, and that rows of bits are
well formed. Who issued it, for how long it is valid and what its signature is worth is left to
others.

The reading is lenient. An element is known by the number of its tag alone, a length may be written
in more bytes than needed, and what stands behind the parts of a row is passed over, except in the
part that is signed.
-/

namespace LedgerGateway.X509

open Asn1 (Element)

/-- Reads an element that has the tag number of an identifier. -/
def readLike (identifier : UInt8) (b : Bytes) : Option (Bytes × Bytes) := do
  let e ← Asn1.read .lenient b
  if e.value.number = Asn1.tagNumber identifier then some (e.value.content, e.rest) else none

/-- Whether the content of a row of bits is well formed: the first byte says how many bits of the
last one are unused, at most seven, and these are zero. -/
def isBits : Bytes → Bool
  | [] => false
  | unused :: bits =>
    unused ≤ 7 && (bits.getLast?.getD 0).toNat % (1 <<< unused.toNat) = 0

/-- Whether the content of a row begins with an object identifier. -/
def namesAlgorithm (b : Bytes) : Bool :=
  (readLike Asn1.objectIdentifier b).isSome

def skipAlgorithm (b : Bytes) : Option Bytes := do
  let (content, rest) ← readLike Asn1.sequence b
  if namesAlgorithm content then some rest else none

def skipBits (b : Bytes) : Option Bytes := do
  let (content, rest) ← readLike Asn1.bitString b
  if isBits content then some rest else none

def skipSequence (b : Bytes) : Option Bytes := do
  let (_, rest) ← readLike Asn1.sequence b
  return rest

/-- Whether the content of an integer is not negative and fits 32 bits. -/
def isSmallNatural : Bytes → Bool
  | [] => false
  | x :: rest => x < 0x80 && ((x :: rest).dropWhile (· == 0)).length ≤ 4

/-- Passes over the version, which may be missing. It stands in an element that the context numbers
zero. -/
def skipVersion (b : Bytes) : Option Bytes := do
  let e ← Asn1.read .lenient b
  if e.value.number = 0 then
    let (content, _) ← readLike Asn1.integer e.value.content
    guard (isSmallNatural content)
    return e.rest
  else return b

def skipValidity (b : Bytes) : Option Bytes := do
  let (content, rest) ← readLike Asn1.sequence b
  let start ← Asn1.read .lenient content
  let finish ← Asn1.read .lenient start.rest
  guard (isTime start.value && isTime finish.value)
  return rest

def skipPublicKey (b : Bytes) : Option Bytes := do
  let (content, rest) ← readLike Asn1.sequence b
  let _ ← skipBits (← skipAlgorithm content)
  return rest

/-- Passes over an identifier of bits, which the context numbers and which may be missing. -/
def skipUniqueId (number : Nat) (b : Bytes) : Option Bytes :=
  match Asn1.read .lenient b with
  | none => some b
  | some e =>
    if e.value.number ≠ number then some b
    else if isBits e.value.content then some e.rest
    else none

/-- Whether an element is an extension: an object identifier, a truth value that may be missing, and
a row of bytes. -/
def isExtension (e : Element) : Bool :=
  e.number == Asn1.tagNumber Asn1.sequence &&
    match readLike Asn1.objectIdentifier e.content with
    | none => false
    | some (_, b) =>
      match readLike Asn1.boolean b with
      | some ([_], rest) => (readLike Asn1.octetString rest).isSome
      | _ => (readLike Asn1.octetString b).isSome

/-- Whether the rest of what is signed is nothing, or an element that the context numbers three with
a row of extensions in it. -/
def areExtensions (b : Bytes) : Bool :=
  match Asn1.read .lenient b with
  | none => b.isEmpty
  | some e =>
    e.value.number == 3 && e.rest.isEmpty &&
      match readLike Asn1.sequence e.value.content with
      | some (content, []) => (Asn1.readAll .lenient content).any (·.all isExtension)
      | _ => false

/-- Passes over the parts that every certificate signs. -/
def skipSignedParts (b : Bytes) : Option Bytes := do
  let b ← skipVersion b
  let (_, b) ← readLike Asn1.integer b
  let b ← skipAlgorithm b
  let b ← skipSequence b
  let b ← skipValidity b
  let b ← skipSequence b
  let b ← skipPublicKey b
  let b ← skipUniqueId 1 b
  skipUniqueId 2 b

/-- Reads the part of a certificate that is signed, and passes over the signature. -/
def readSigned (b : Bytes) : Option Bytes := do
  let (content, _) ← readLike Asn1.sequence b
  let (signed, b) ← readLike Asn1.sequence content
  let b ← skipAlgorithm b
  let _ ← skipBits b
  return signed

def isCertificate (b : Bytes) : Bool :=
  ((readSigned b).bind skipSignedParts).any areExtensions

end LedgerGateway.X509
