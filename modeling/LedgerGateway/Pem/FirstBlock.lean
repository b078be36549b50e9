import LedgerGateway.Pem.Base64
import LedgerGateway.Pem.Lines
import LedgerGateway.Text.Blank
import LedgerGateway.Text.Utf8

/-!
# The first block of a PEM text

A PEM text holds bytes in base64 between two lines, which name what the bytes are. `Block.first`
reads the first block and looks at nothing behind it. It is lax about the base64, which may be cut
into lines of any length with white space at their ends, and does not compare the names. Every line
that has to be read has to be text.
-/

namespace LedgerGateway.Pem

/-- What keeps a block from being read. -/
inductive BlockFault where
  /-- A line is not text. -/
  | unreadable
  /-- No line begins a block. -/
  | missingHeader
  /-- The line that begins the block does not name what is in it. -/
  | invalidHeader
  /-- No line ends the block. -/
  | incomplete
  /-- What is in the block is not base64. -/
  | notBase64
deriving DecidableEq, Repr

def BlockFault.message : BlockFault → String
  | unreadable => "Parsing Error: IOError"
  | missingHeader => "Parsing Error: MissingHeader"
  | invalidHeader => "Parsing Error: InvalidHeader"
  | incomplete => "Parsing Error: IncompletePEM"
  | notBase64 => "Parsing Error: Base64DecodeError"

structure Block where
  label : String
  content : Bytes
deriving DecidableEq, Repr

namespace Block

def beginMarker : List Char := "-----BEGIN ".toList

def endMarker : List Char := "-----END ".toList

def dashes : List Char := "-----".toList

def hasDashes : List Char → Bool
  | [] => false
  | c :: rest => dashes.isPrefixOf (c :: rest) || hasDashes rest

def readLine (line : Bytes) : Except BlockFault (List Char) :=
  match Text.decodeUtf8? line with
  | some s => .ok s.toList
  | none => .error .unreadable

/-- Passes over the lines before the block. Gives the name of the block and the lines behind its
first one. -/
def readHeader : List Bytes → Except BlockFault (String × List Bytes)
  | [] => .error .missingHeader
  | line :: rest => do
    let cs ← readLine line
    match beginMarker.isPrefixOf? cs with
    | none => readHeader rest
    | some named =>
      if hasDashes named then return (String.ofList (named.takeWhile (· != '-')), rest)
      else .error .invalidHeader

/-- The text of the lines up to the one that ends the block, without the white space at the ends of
the lines. -/
def readBody : List Bytes → Except BlockFault (List Char)
  | [] => .error .incomplete
  | line :: rest => do
    let cs ← readLine line
    if endMarker.isPrefixOf cs then return []
    else return Text.trimEnd cs ++ (← readBody rest)

/-- Reads the first block of a PEM text. -/
def first (b : Bytes) : Except BlockFault Block := do
  let (label, rest) ← readHeader (linesEndedBy (· == 0x0A) b)
  let body ← readBody rest
  match Base64.decodeRows (Text.encodeUtf8 (String.ofList body)) with
  | some content => return ⟨label, content⟩
  | none => .error .notBase64

end Block

end LedgerGateway.Pem
