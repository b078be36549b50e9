import LedgerGateway.Asn1.Element

/-!
# Trust anchors

A certificate that signatures are traced back to has to meet stricter demands than others
(`isTrustAnchor`). It is read by the strict rules, with nothing behind it and nothing between its
parts. It is of version three, names the same algorithm inside and outside of what is signed, and
carries every known extension at most once and no unknown one that it calls critical; or it is of
version one and has no extensions.
-/

namespace LedgerGateway.X509

open Asn1 (Element)

def contentOf? (identifier : UInt8) (e : Element) : Option Bytes :=
  if e.identifier = identifier then some e.content else none

def elementsOf? (identifier : UInt8) (e : Element) : Option (List Element) :=
  (contentOf? identifier e).bind (Asn1.readAll .strict)

structure Extension where
  /-- The content of the object identifier that names it. -/
  name : Bytes
  isCritical : Bool
  content : Bytes

def Extension.ofElement? (e : Element) : Option Extension := do
  match ← elementsOf? Asn1.sequence e with
  | [name, content] =>
    return ⟨← contentOf? Asn1.objectIdentifier name, false,
      ← contentOf? Asn1.octetString content⟩
  | [name, critical, content] =>
    let isCritical ←
      match ← contentOf? Asn1.boolean critical with
      | [0xFF] => some true
      | [0x00] => some false
      | _ => none
    return ⟨← contentOf? Asn1.objectIdentifier name, isCritical,
      ← contentOf? Asn1.octetString content⟩
  | _ => none

/-- The number of the extension that restricts what a key may be used for. -/
def keyUsage : UInt8 := 15

def knownExtensions : List UInt8 := [keyUsage, 17, 19, 30, 31, 37]

def Extension.number? (x : Extension) : Option UInt8 :=
  match x.name with
  | [0x55, 0x1D, number] => if number ∈ knownExtensions then some number else none
  | _ => none

/-- Whether an extension can be accepted by itself: it is known and, unless it is the one for the
use of keys, holds one row; or it is not critical. -/
def Extension.isAcceptable (x : Extension) : Bool :=
  match x.number? with
  | some number =>
    number == keyUsage || (Asn1.readWhole .strict Asn1.sequence x.content).isSome
  | none => !x.isCritical

/-- Whether extensions can be accepted together: no known one comes twice. -/
def areAcceptable (extensions : List Extension) : Bool :=
  extensions.all Extension.isAcceptable && decide (extensions.filterMap Extension.number?).Nodup

/-- Whether the last part of what is signed is a row of acceptable extensions. -/
def areAnchorExtensions : List Element → Bool
  | [] => true
  | [e] =>
    Option.isSome do
      match ← elementsOf? (Asn1.context 3) e with
      | [row] =>
        let extensions ← (← elementsOf? Asn1.sequence row).mapM Extension.ofElement?
        guard (areAcceptable extensions)
      | _ => none
  | _ => false

/-- Whether elements are the parts of a certificate from the name of the algorithm to the key. -/
def areCoreParts : List Element → Bool
  | [algorithm, issuer, validity, subject, key] =>
    [algorithm, issuer, validity, subject, key].all (·.identifier == Asn1.sequence)
  | _ => false

def isSignature (e : Element) : Bool :=
  ((contentOf? Asn1.bitString e).bind Asn1.wholeBits?).isSome

def isVersionThree (e : Element) : Bool :=
  elementsOf? (Asn1.context 0) e == some [⟨Asn1.integer, 2, [2]⟩]

/-- Whether the elements of what is signed, with the algorithm outside of it, are those of version
three. -/
def isAnchorOfVersionThree (algorithm : Element) : List Element → Bool
  | version :: serial :: parts =>
    isVersionThree version && serial.identifier == Asn1.integer &&
      parts.head? == some algorithm && areCoreParts (parts.take 5) &&
      areAnchorExtensions (parts.drop 5)
  | _ => false

/-- Whether the elements of what is signed are those of version one. -/
def isAnchorOfVersionOne : List Element → Bool
  | serial :: parts => serial.identifier == Asn1.integer && areCoreParts parts
  | _ => false

def isTrustAnchor (b : Bytes) : Bool :=
  Option.isSome do
    let content ← Asn1.readWhole .strict Asn1.sequence b
    match ← Asn1.readAll .strict content with
    | [signed, algorithm, signature] =>
      let parts ← elementsOf? Asn1.sequence signed
      guard (algorithm.identifier == Asn1.sequence && isSignature signature &&
        (isAnchorOfVersionThree algorithm parts || isAnchorOfVersionOne parts))
    | _ => none

end LedgerGateway.X509
