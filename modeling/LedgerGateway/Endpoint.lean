import LedgerGateway.Configuration

/-!
# Endpoints

Before a peer is called, its address is checked twice. Behind `https://` it has to make a URI
(`isUri`), and the host in it has to be a name that a server can prove: the name of a host or an
IPv4 address (`isServerName`).

Of the URI the first part counts most, the authority, which ends at the first slash, question mark
or number sign. It may hold user information, a host and a port. A path and a query may follow; what
follows a number sign is not looked at.
-/

namespace LedgerGateway.Endpoint

def isAlphanumeric (x : UInt8) : Bool :=
  (0x30 ≤ x && x ≤ 0x39) || (0x41 ≤ x && x ≤ 0x5A) || (0x61 ≤ x && x ≤ 0x7A)

/-- The signs that may stand in an authority beside letters, digits and those that divide it. -/
def authoritySigns : Bytes :=
  "!$&'()*+,-.;=_~".toList.map fun c => UInt8.ofNat c.toNat

/-- What has been seen of an authority. -/
structure Authority where
  /-- The colons since the last `@` or `]`. -/
  colons : Nat
  opened : Bool
  closed : Bool
  /-- Whether a percent sign has come since the last `@` or `]`. -/
  percent : Bool
  /-- Whether the last byte is an `@`. -/
  endsWithAt : Bool

namespace Authority

def start : Authority := ⟨0, false, false, false, false⟩

/-- Sees one byte. Colons and percent signs belong to user information if an `@` follows, and to a
host in brackets if a `]` follows; then they are forgotten. -/
def step (a : Authority) (x : UInt8) : Option Authority :=
  let a := { a with endsWithAt := false }
  if x = 0x3A then if 8 ≤ a.colons then none else some { a with colons := a.colons + 1 }
  else if x = 0x5B then if a.percent || a.opened then none else some { a with opened := true }
  else if x = 0x5D then
    if !a.opened || a.closed then none
    else some { a with closed := true, colons := 0, percent := false }
  else if x = 0x40 then some { a with colons := 0, percent := false, endsWithAt := true }
  else if x = 0x25 then some { a with percent := true }
  else if isAlphanumeric x || authoritySigns.contains x then some a
  else none

def isComplete (a : Authority) : Bool :=
  a.opened == a.closed && a.colons ≤ 1 && !a.endsWithAt && !a.percent

end Authority

def endsAuthority (x : UInt8) : Bool :=
  x == 0x2F || x == 0x3F || x == 0x23

def isAuthority (b : Bytes) : Bool :=
  b ≠ [] && (b.foldlM Authority.step Authority.start).any Authority.isComplete

def isPathByte (x : UInt8) : Bool :=
  x == 0x21 || x == 0x22 || (0x24 ≤ x && x ≤ 0x3B) || x == 0x3D || (0x40 ≤ x && x ≤ 0x5F) ||
    (0x61 ≤ x && x ≤ 0x7E)

def isQueryByte (x : UInt8) : Bool :=
  x == 0x21 || (0x24 ≤ x && x ≤ 0x3B) || x == 0x3D || (0x3F ≤ x && x ≤ 0x7E)

/-- Whether bytes are a path and a query, or a part of them. -/
def isPathAndQuery (b : Bytes) : Bool :=
  let b := b.takeWhile (· != 0x23)
  (b.takeWhile (· != 0x3F)).all isPathByte &&
    ((b.dropWhile (· != 0x3F)).drop 1).all isQueryByte

def uriLimit : Nat := 65534

/-- Whether an address makes a URI behind `https://`. -/
def isUri (address : String) : Bool :=
  let b := Text.encodeUtf8 address
  b.length + 8 ≤ uriLimit && isAuthority (b.takeWhile (!endsAuthority ·)) &&
    isPathAndQuery (b.dropWhile (!endsAuthority ·))

def isLabelChar (c : Char) : Bool :=
  c.isAlphanum || c == '_' || c == '-'

def isLabel (cs : List Char) : Bool :=
  1 ≤ cs.length && cs.length ≤ 63 && cs.all isLabelChar && cs.head? != some '-' &&
    cs.getLast? != some '-'

def parts (cs : List Char) : List (List Char) :=
  cs.splitOn '.'

/-- Whether labels make a host name. The last one must not be a number. -/
def areLabels (labels : List (List Char)) : Bool :=
  labels.all isLabel && !(labels.getLast?.getD []).all Char.isDigit

/-- Whether a text is the name of a host. One dot may stand at its end. -/
def isHostName (cs : List Char) : Bool :=
  cs.length ≤ 253 &&
    (areLabels (parts cs) || (cs.getLast? == some '.' && areLabels (parts cs.dropLast)))

/-- Whether a text is one of the four numbers of an IPv4 address: at most 255, and without zeros in
front. -/
def isAddressNumber (cs : List Char) : Bool :=
  1 ≤ cs.length && cs.length ≤ 3 && cs.all Char.isDigit &&
    (cs.length == 1 || cs.head? != some '0') &&
    cs.foldl (fun n c => 10 * n + (c.toNat - 48)) 0 ≤ 255

def isAddress (cs : List Char) : Bool :=
  (parts cs).length == 4 && (parts cs).all isAddressNumber

/-- Whether a text is a name that a server can prove. -/
def isServerName (name : String) : Bool :=
  isHostName name.toList || isAddress name.toList

end LedgerGateway.Endpoint
