import LedgerGateway.Wire.Fields

/-!
# Reading messages

`Fields.decode` reads a message of a given type. The bytes of a message are records without order,
each a key and a value, and reading folds over them (`readRecords`). A record of a field that the
type declares goes into that field (`Fields.readField`): the last scalar wins, an element is added
to a repeated field, an entry replaces one of the same name, and a nested message is read on top of
the one that is there. A record of any other field is passed over (`skip`).

Two rules are about nesting. A length may not reach behind the end of the bytes, but whether the
records of a nested message stop where its length says is checked only when they have been read. And
a counter goes down with every message, entry and group that is entered (`nestingLimit`): at zero
nothing more can be entered, and no unknown field can be passed over.
-/

namespace LedgerGateway.Wire

/-- How deep messages, entries and groups may be nested. -/
def nestingLimit : Nat := 100

/-- Passes over the records of a group up to its end, which carries the same number. -/
def skipGroup (skip : Key → (b : Bytes) → Except Fault (Reading Unit b)) (number : Nat)
    (b : Bytes) : Except Fault (Reading Unit b) := do
  let key ← readKey b
  if key.value.wireType = .endGroup then
    if key.value.number = number then return key.map fun _ => ()
    else .error .unexpectedEndGroup
  else
    let passed ← skip key.value key.rest
    let ended ← skipGroup skip number passed.rest
    return key.behind (passed.behind ended)
termination_by b.length
decreasing_by
  have := key.shorter
  have := passed.shorter
  omega

def skip : (depth : Nat) → Key → (b : Bytes) → Except Fault (Reading Unit b)
  | 0, _, _ => .error .recursionLimit
  | depth + 1, key, b =>
    match key.wireType with
    | .varint => return (← readVarint b).map fun _ => ()
    | .sixtyFourBit => skipFixed 8 (by decide) b
    | .lengthDelimited => return (← readSized b).map fun _ => ()
    | .startGroup => skipGroup (skip depth) key.number b
    | .endGroup => .error .unexpectedEndGroup
    | .thirtyTwoBit => skipFixed 4 (by decide) b

/-- A message read up to the place where `left` bytes are left. -/
structure Filled (ρ : Type) (left : Nat) where
  value : ρ
  rest : Bytes
  length_rest : rest.length = left

/-- Reads records on top of a message until `left` bytes are left, and exactly so many. The reader
`step` takes the value of one record. -/
def readRecords {ρ : Type}
    (step : Key → (b : Bytes) → ρ → Except DecodeError (Reading ρ b)) (left : Nat)
    (b : Bytes) (m : ρ) : Except DecodeError (Filled ρ left) :=
  if h : b.length = left then .ok ⟨m, b, h⟩
  else if b.length < left then .error (.ofFault .lengthExceeded)
  else do
    let key ← (readKey b).mapError .ofFault
    let r ← step key.value key.rest m
    readRecords step left r.rest r.value
termination_by b.length
decreasing_by
  have := key.shorter
  have := r.shorter
  omega

/-- Reads a length and then records that fill it, on top of a message. -/
def readFilled {ρ : Type}
    (step : Key → (b : Bytes) → ρ → Except DecodeError (Reading ρ b)) (b : Bytes) (m : ρ) :
    Except DecodeError (Reading ρ b) := do
  let size ← (readVarint b).mapError .ofFault
  if size.value ≤ size.rest.length then
    let filled ← readRecords step (size.rest.length - size.value) size.rest m
    return ⟨filled.value, filled.rest, by
      have := size.shorter
      have := filled.length_rest
      omega⟩
  else .error (.ofFault .bufferUnderflow)

def enter {ρ : Type}
    (step : (depth : Nat) → Key → (b : Bytes) → ρ → Except DecodeError (Reading ρ b)) :
    (depth : Nat) → (b : Bytes) → ρ → Except DecodeError (Reading ρ b)
  | 0, _, _ => .error (.ofFault .recursionLimit)
  | depth + 1, b, m => readFilled (step depth) b m

/-- Enters a nested message if the wire type is the one of messages. -/
def enterMessage {ρ : Type}
    (step : (depth : Nat) → Key → (b : Bytes) → ρ → Except DecodeError (Reading ρ b))
    (depth : Nat) (found : WireType) (b : Bytes) (m : ρ) : Except DecodeError (Reading ρ b) :=
  if found = .lengthDelimited then enter step depth b m
  else .error (.ofFault (.wrongWireType found .lengthDelimited))

/-- Reads the value of a record of an entry. -/
def readEntryField (depth : Nat) (key : Key) (b : Bytes) (e : String × Bytes) :
    Except DecodeError (Reading (String × Bytes) b) :=
  Except.mapError .ofFault <|
    if key.number = Fields.entryKey.number then
      return (← Scalar.string.read key.wireType b).map fun k => (k, e.2)
    else if key.number = Fields.entryValue.number then
      return (← Scalar.bytes.read key.wireType b).map fun v => (e.1, v)
    else return (← skip depth key b).map fun _ => e

namespace Fields

/-- Reads the value of a record into the field with its number. `type` is the name of the type of
message. An error in a declared field is marked with the field. The wire type of an entry of a
dictionary is not looked at. -/
def readField : (f : Fields) → (type : String) → (depth : Nat) → Key → (b : Bytes) → f.Record →
    Except DecodeError (Reading f.Record b)
  | nil, _, depth, key, b, m =>
    return (← (skip depth key b).mapError .ofFault).map fun _ => m
  | scalar label kind rest, type, depth, key, b, (v, m) =>
    if key.number = label.number then
      Except.mapError (.within type label.shown) do
        let r ← (kind.read key.wireType b).mapError .ofFault
        return r.map fun v => (v, m)
    else return (← rest.readField type depth key b m).map fun m => (v, m)
  | scalars label kind rest, type, depth, key, b, (vs, m) =>
    if key.number = label.number then
      Except.mapError (.within type label.shown) do
        let r ← (kind.read key.wireType b).mapError .ofFault
        return r.map fun v => (vs ++ [v], m)
    else return (← rest.readField type depth key b m).map fun m => (vs, m)
  | message label innerType inner rest, type, depth, key, b, (v, m) =>
    if key.number = label.number then
      Except.mapError (.within type label.shown) do
        let r ← enterMessage (inner.readField innerType) depth key.wireType b
          (v.getD inner.default)
        return r.map fun v => (some v, m)
    else return (← rest.readField type depth key b m).map fun m => (v, m)
  | messages label innerType inner rest, type, depth, key, b, (vs, m) =>
    if key.number = label.number then
      Except.mapError (.within type label.shown) do
        let r ← enterMessage (inner.readField innerType) depth key.wireType b inner.default
        return r.map fun v => (vs ++ [v], m)
    else return (← rest.readField type depth key b m).map fun m => (vs, m)
  | dictionary label rest, type, depth, key, b, (d, m) =>
    if key.number = label.number then
      Except.mapError (.within type label.shown) do
        let r ← enter readEntryField depth b ("", [])
        return r.map fun e => (d.insert e.1 e.2, m)
    else return (← rest.readField type depth key b m).map fun m => (d, m)

/-- Reads a message of which `type` is the name of the type. -/
def decode (f : Fields) (type : String) (b : Bytes) : Except DecodeError f.Record :=
  return (← readRecords (f.readField type nestingLimit) 0 b f.default).value

end Fields

end LedgerGateway.Wire
