/-!
# Faults of encoded messages

Reading an encoded message can fail in ten ways (`Fault`). A failure inside a field also remembers
where it happened (`DecodeError`): the message and field it was read for, and those around it, the
innermost first. The text of the error puts these places before the text of the fault.
-/

namespace LedgerGateway.Wire

/-- How the value of a record is written. -/
inductive WireType where
  | varint
  | sixtyFourBit
  | lengthDelimited
  | startGroup
  | endGroup
  | thirtyTwoBit
deriving DecidableEq, Repr

namespace WireType

def code : WireType → Nat
  | varint => 0
  | sixtyFourBit => 1
  | lengthDelimited => 2
  | startGroup => 3
  | endGroup => 4
  | thirtyTwoBit => 5

def ofCode? : Nat → Option WireType
  | 0 => some varint
  | 1 => some sixtyFourBit
  | 2 => some lengthDelimited
  | 3 => some startGroup
  | 4 => some endGroup
  | 5 => some thirtyTwoBit
  | _ => none

def name : WireType → String
  | varint => "Varint"
  | sixtyFourBit => "SixtyFourBit"
  | lengthDelimited => "LengthDelimited"
  | startGroup => "StartGroup"
  | endGroup => "EndGroup"
  | thirtyTwoBit => "ThirtyTwoBit"

theorem ofCode?_code : ∀ t : WireType, ofCode? t.code = some t := by
  intro t
  cases t <;> rfl

theorem code_of_ofCode? : ∀ {n : Nat} {t : WireType}, ofCode? n = some t → t.code = n := by
  intro n t h
  match n with
  | 0 | 1 | 2 | 3 | 4 | 5 => cases h; rfl
  | n + 6 => cases h

end WireType

/-- What can be wrong with an encoded message. -/
inductive Fault where
  /-- A number of variable width has no end or is too large. -/
  | invalidVarint
  /-- A key does not fit 32 bits. -/
  | invalidKey (value : Nat)
  /-- A key names no wire type. -/
  | invalidWireType (code : Nat)
  /-- A key has the field number zero. -/
  | zeroNumber
  /-- A declared field comes with the wire type of another kind of value. -/
  | wrongWireType (found expected : WireType)
  /-- A value is longer than what is left. -/
  | bufferUnderflow
  /-- The records of a nested message go on behind its end. -/
  | lengthExceeded
  /-- The bytes of a text are not UTF-8. -/
  | invalidText
  /-- A group ends that was not begun. -/
  | unexpectedEndGroup
  /-- The nesting is too deep. -/
  | recursionLimit
deriving DecidableEq, Repr

def Fault.message : Fault → String
  | invalidVarint => "invalid varint"
  | invalidKey value => s!"invalid key value: {value}"
  | invalidWireType code => s!"invalid wire type value: {code}"
  | zeroNumber => "invalid tag value: 0"
  | wrongWireType found expected =>
    "invalid wire type: " ++ found.name ++ " (expected " ++ expected.name ++ ")"
  | bufferUnderflow => "buffer underflow"
  | lengthExceeded => "delimited length exceeded"
  | invalidText => "invalid string value: data is not UTF-8 encoded"
  | unexpectedEndGroup => "unexpected end group tag"
  | recursionLimit => "recursion limit reached"

/-- A fault and the fields it lies in, as pairs of message and field, the innermost first. -/
structure DecodeError where
  fault : Fault
  path : List (String × String)
deriving DecidableEq, Repr

namespace DecodeError

def ofFault (fault : Fault) : DecodeError := ⟨fault, []⟩

/-- The same fault, seen from around a field. -/
def within (message field : String) (e : DecodeError) : DecodeError :=
  { e with path := e.path ++ [(message, field)] }

def message (e : DecodeError) : String :=
  "failed to decode Protobuf message: " ++
    String.join (e.path.map fun (message, field) => message ++ "." ++ field ++ ": ") ++
    e.fault.message

end DecodeError

end LedgerGateway.Wire
