import LedgerGateway.Pem.Base64
import LedgerGateway.Pem.Lines

/-!
# Bundles of certificates

A bundle is a PEM text of which every block counts (`certificates`). A block runs from a line that
names it to a line that ends it by the same name, and what stands between blocks is passed over.
White space may stand anywhere between the digits of a block, and the padding behind them may be
left out. Blocks that are no certificates are dropped.

A bundle is refused when a line begins a block but is not closed by five dashes, when a block is not
ended, or when a block with a well-known name is not base64. A line that begins a block inside of
another takes over what has been read.
-/

namespace LedgerGateway.Pem

/-- Whether a byte between or behind the closing dashes of a line is passed over. -/
def isTrailing (x : UInt8) : Bool :=
  x == 0x0A || x == 0x0D || x == 0x20

/-- Whether a byte between digits is passed over. -/
def isSpace (x : UInt8) : Bool :=
  (0x09 ≤ x && x ≤ 0x0D) || x == 0x20

def knownLabels : List String :=
  [certificateLabel, "CERTIFICATE REQUEST", "X509 CRL", "PUBLIC KEY", "PRIVATE KEY",
    "EC PRIVATE KEY", "RSA PRIVATE KEY", "ECHCONFIG"]

/-- Counts the dashes that close a reversed line, and gives what comes before the first of them.
Line ends and spaces between the dashes are passed over. -/
def closingDashes (count : Nat) (before : Bytes) : Bytes → Nat × Bytes
  | [] => (count, before)
  | x :: rest =>
    if x = 0x2D then closingDashes (count + 1) rest rest
    else if isTrailing x then closingDashes count before rest
    else (count, before)

/-- The name in a line that begins a block, given the line behind the marker. -/
def bundleLabel? (line : Bytes) : Option Bytes :=
  match closingDashes 0 [] line.reverse with
  | (5, before) => some before.reverse
  | _ => none

/-- The certificate in a block, if it is one. -/
def certificateOf (label digits : Bytes) : Option (List Bytes) :=
  if label ∈ knownLabels.map ascii then do
    let content ← Base64.decodeUnpadded (digits.filter (!isSpace ·))
    return if label = ascii certificateLabel then [content] else []
  else some []

/-- The certificates in the lines that follow. `current` is the name of the block that is being
read, and `digits` what has been read of it. -/
def readBundle (current : Option Bytes) (digits : Bytes) :
    List Bytes → Option (List Bytes)
  | [] => if current.isSome then none else some []
  | line :: rest =>
    match behind? "-----BEGIN " line with
    | some named => do
      let label ← bundleLabel? named
      readBundle (some label) digits rest
    | none =>
      match current with
      | none => readBundle none digits rest
      | some label =>
        if (ascii "-----END " ++ label ++ ascii "-----").isPrefixOf line then do
          let certificate ← certificateOf label digits
          return certificate ++ (← readBundle none [] rest)
        else readBundle current (digits ++ line) rest

def certificates (b : Bytes) : Option (List Bytes) :=
  readBundle none [] (linesEndedBy (fun x => x == 0x0A || x == 0x0D) b)

end LedgerGateway.Pem
