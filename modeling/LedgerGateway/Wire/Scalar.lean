import LedgerGateway.Text.Utf8
import LedgerGateway.Wire.Primitive

/-!
# Scalar values

A scalar is a value that is no message: a number, a truth value, a text or a byte string. Numbers
and truth values are written as numbers of variable width, a negative number as the 64-bit number
with the same two's complement; texts and byte strings are written behind their length.

Reading is laxer than writing. A number may come with more bits than its kind has, and then the low
ones count; every number but zero means true.
-/

namespace LedgerGateway.Wire

/-- The kinds of scalars. The numbers of an enumeration are of kind `int32`. -/
inductive Scalar where
  | int32
  | int64
  | uint64
  | bool
  | string
  | bytes
deriving DecidableEq, Repr

namespace Scalar

@[reducible]
def Carrier : Scalar → Type
  | int32 => Int32
  | int64 => Int64
  | uint64 => UInt64
  | bool => Bool
  | string => String
  | bytes => Bytes

/-- The value that a field has when nothing is written. -/
def zero : (k : Scalar) → k.Carrier
  | int32 => 0
  | int64 => 0
  | uint64 => 0
  | bool => false
  | string => ""
  | bytes => []

instance decEq : (k : Scalar) → DecidableEq k.Carrier
  | int32 => inferInstanceAs (DecidableEq Int32)
  | int64 => inferInstanceAs (DecidableEq Int64)
  | uint64 => inferInstanceAs (DecidableEq UInt64)
  | bool => inferInstanceAs (DecidableEq Bool)
  | string => inferInstanceAs (DecidableEq String)
  | bytes => inferInstanceAs (DecidableEq Bytes)

def wireType : Scalar → WireType
  | int32 | int64 | uint64 | bool => .varint
  | string | bytes => .lengthDelimited

def encode : (k : Scalar) → k.Carrier → Bytes
  | int32, v => writeVarint v.toInt64.toUInt64.toNat
  | int64, v => writeVarint v.toUInt64.toNat
  | uint64, v => writeVarint v.toNat
  | bool, v => writeVarint v.toNat
  | string, v => writeSized (Text.encodeUtf8 v)
  | bytes, v => writeSized v

def encodedLength : (k : Scalar) → k.Carrier → Nat
  | int32, v => lengthVarint v.toInt64.toUInt64.toNat
  | int64, v => lengthVarint v.toUInt64.toNat
  | uint64, v => lengthVarint v.toNat
  | bool, _ => 1
  | string, v => lengthVarint v.utf8ByteSize + v.utf8ByteSize
  | bytes, v => lengthVarint v.length + v.length

def decode : (k : Scalar) → (b : Bytes) → Except Fault (Reading k.Carrier b)
  | int32, b => return (← readVarint b).map Int32.ofNat
  | int64, b => return (← readVarint b).map Int64.ofNat
  | uint64, b => return (← readVarint b).map UInt64.ofNat
  | bool, b => return (← readVarint b).map (· != 0)
  | string, b => do
    let r ← readSized b
    match Text.decodeUtf8? r.value with
    | some s => return r.map fun _ => s
    | none => .error .invalidText
  | bytes, b => readSized b

/-- Reads the value of a record, whose wire type has to be that of the kind. -/
def read (k : Scalar) (found : WireType) (b : Bytes) : Except Fault (Reading k.Carrier b) :=
  if found = k.wireType then k.decode b else .error (.wrongWireType found k.wireType)

end Scalar

end LedgerGateway.Wire
