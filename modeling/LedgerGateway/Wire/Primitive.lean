import LedgerGateway.Reading
import LedgerGateway.Wire.Fault

/-!
# What records are made of

An encoded message is a row of records, and these are made of few things: numbers of variable width
(`readVarint`), byte strings behind their length (`readSized`), values of a fixed width, and the key
in front of each record (`readKey`), which holds the number of the field and its wire type. For the
first, the second and the last there is a writer too.
-/

namespace LedgerGateway.Wire

/-- Writes a number of variable width: seven bits to a byte, the low ones first, and the high bit
set on every byte but the last. -/
def writeVarint (n : Nat) : Bytes :=
  if n < 128 then [UInt8.ofNat n]
  else UInt8.ofNat (n % 128 + 128) :: writeVarint (n / 128)
termination_by n
decreasing_by omega

/-- How many bytes `writeVarint` takes: one for every seven bits. -/
def lengthVarint (n : Nat) : Nat :=
  Nat.log2 n / 7 + 1

/-- Reads a number of variable width in at most `width` bytes. The last byte that the width allows
may hold a single bit. -/
def readVarintWithin : (width : Nat) → (b : Bytes) → Option (Reading Nat b)
  | 0, _ => none
  | _ + 1, [] => none
  | width + 1, x :: rest =>
    if x < 128 then
      if width = 0 ∧ 1 < x then none else some ⟨x.toNat, rest, Reading.length_lt_cons x rest⟩
    else
      match readVarintWithin width rest with
      | none => none
      | some r =>
        some ⟨x.toNat - 128 + 128 * r.value, r.rest, r.shorter_cons x⟩

/-- Reads a number of at most 64 bits. -/
def readVarint (b : Bytes) : Except Fault (Reading Nat b) :=
  match readVarintWithin 10 b with
  | some r => .ok r
  | none => .error .invalidVarint

def skipFixed (width : Nat) (positive : 0 < width) (b : Bytes) : Except Fault (Reading Unit b) :=
  if h : width ≤ b.length then
    .ok ⟨(), b.drop width, by rw [List.length_drop]; omega⟩
  else .error .bufferUnderflow

/-- Writes a byte string behind its length. -/
def writeSized (content : Bytes) : Bytes :=
  writeVarint content.length ++ content

def readSized (b : Bytes) : Except Fault (Reading Bytes b) := do
  let size ← readVarint b
  if size.value ≤ size.rest.length then
    .ok ⟨size.rest.take size.value, size.rest.drop size.value, by
      have := size.shorter
      rw [List.length_drop]
      omega⟩
  else .error .bufferUnderflow

/-- What stands in front of a record. -/
structure Key where
  number : Nat
  wireType : WireType
deriving DecidableEq, Repr

/-- Writes a key: the wire type in the low three bits, the number of the field above them. -/
def writeKey (k : Key) : Bytes :=
  writeVarint (8 * k.number + k.wireType.code)

/-- The first number that is too large for a key. -/
def keyLimit : Nat := 4294967296

/-- Reads a key. It has at most 32 bits, one of the six wire types and a number other than zero, and
is faulted in this order. -/
def readKey (b : Bytes) : Except Fault (Reading Key b) := do
  let r ← readVarint b
  if keyLimit ≤ r.value then .error (.invalidKey r.value)
  else
    match WireType.ofCode? (r.value % 8) with
    | none => .error (.invalidWireType (r.value % 8))
    | some wireType =>
      if r.value / 8 = 0 then .error .zeroNumber
      else .ok (r.map fun n => ⟨n / 8, wireType⟩)

end LedgerGateway.Wire
