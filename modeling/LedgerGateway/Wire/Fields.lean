import LedgerGateway.Wire.Dictionary
import LedgerGateway.Wire.Scalar

/-!
# The fields of a message

What a type of message may hold is data here: a list of its fields (`Fields`), each with a number, a
name and a shape. A field holds a scalar, a message of its own, any number of either, or a
dictionary. From the list follow the values of the type (`Fields.Record`), the value without content
(`Fields.default`), the bytes a value is written as (`Fields.encode`) and how many these are
(`Fields.encodedLength`). The reader is in `LedgerGateway.Wire.Decoding`.

A list of fields is well-formed (`Fields.IsWellFormed`) if every field has a number of its own and one
that fits a key, in the messages inside, too. Only then can a reader tell the fields apart.

Writing is canonical. Fields come in the order of the list, a scalar that is zero or empty is left
out, a message that is there is written even when it is empty, and so is every element of a
repeated field. An entry of a dictionary is a message of two fields, name and content.
-/

namespace LedgerGateway.Wire

/-- What a field is called: its number on the wire, its name in the schema, and its name in error
texts. -/
structure Label where
  number : Nat
  name : String
  shown : String
deriving DecidableEq, Repr

/-- A field that is called the same in error texts. -/
def Label.plain (number : Nat) (name : String) : Label := ⟨number, name, name⟩

/-- The first number that is too large for a field: beside the wire type it would not fit a key. -/
def numberLimit : Nat := 536870912

/-- The fields of a message, in the order of their numbers. For a field that holds messages, `type`
is the name of their type. -/
inductive Fields where
  /-- No more fields. -/
  | nil
  /-- A field with one scalar. -/
  | scalar (label : Label) (kind : Scalar) (rest : Fields)
  /-- A field with any number of scalars. -/
  | scalars (label : Label) (kind : Scalar) (rest : Fields)
  /-- A field with a message, or none. -/
  | message (label : Label) (type : String) (inner rest : Fields)
  /-- A field with any number of messages. -/
  | messages (label : Label) (type : String) (inner rest : Fields)
  /-- A field with a dictionary. -/
  | dictionary (label : Label) (rest : Fields)
deriving DecidableEq, Repr

namespace Fields

/-- The values of a type of message: one component for each field. -/
@[reducible]
def Record : Fields → Type
  | nil => Unit
  | scalar _ kind rest => kind.Carrier × rest.Record
  | scalars _ kind rest => List kind.Carrier × rest.Record
  | message _ _ inner rest => Option inner.Record × rest.Record
  | messages _ _ inner rest => List inner.Record × rest.Record
  | dictionary _ rest => Dictionary × rest.Record

def default : (f : Fields) → f.Record
  | nil => ()
  | scalar _ kind rest => (kind.zero, rest.default)
  | scalars _ _ rest => ([], rest.default)
  | message _ _ _ rest => (none, rest.default)
  | messages _ _ _ rest => ([], rest.default)
  | dictionary _ rest => (.empty, rest.default)

def numbers : Fields → List Nat
  | nil => []
  | scalar label _ rest => label.number :: rest.numbers
  | scalars label _ rest => label.number :: rest.numbers
  | message label _ _ rest => label.number :: rest.numbers
  | messages label _ _ rest => label.number :: rest.numbers
  | dictionary label rest => label.number :: rest.numbers

/-- How deep messages and entries are nested in a message with these fields. -/
def nesting : Fields → Nat
  | nil => 0
  | scalar _ _ rest => rest.nesting
  | scalars _ _ rest => rest.nesting
  | message _ _ inner rest => max (inner.nesting + 1) rest.nesting
  | messages _ _ inner rest => max (inner.nesting + 1) rest.nesting
  | dictionary _ rest => max 1 rest.nesting

/-- The number of a field is not zero, small enough for a key, and none of the others. -/
def IsFresh (label : Label) (others : List Nat) : Prop :=
  (0 < label.number ∧ label.number < numberLimit) ∧ label.number ∉ others

instance (label : Label) (others : List Nat) : Decidable (IsFresh label others) :=
  inferInstanceAs (Decidable (_ ∧ _))

/-- Every field has a number of its own, in the messages inside, too. -/
def IsWellFormed : Fields → Prop
  | nil => True
  | scalar label _ rest => IsFresh label rest.numbers ∧ rest.IsWellFormed
  | scalars label _ rest => IsFresh label rest.numbers ∧ rest.IsWellFormed
  | message label _ inner rest =>
    IsFresh label rest.numbers ∧ inner.IsWellFormed ∧ rest.IsWellFormed
  | messages label _ inner rest =>
    IsFresh label rest.numbers ∧ inner.IsWellFormed ∧ rest.IsWellFormed
  | dictionary label rest => IsFresh label rest.numbers ∧ rest.IsWellFormed

instance decidableIsWellFormed : (f : Fields) → Decidable f.IsWellFormed
  | nil => isTrue trivial
  | scalar label _ rest =>
    have := decidableIsWellFormed rest
    inferInstanceAs (Decidable (IsFresh label rest.numbers ∧ rest.IsWellFormed))
  | scalars label _ rest =>
    have := decidableIsWellFormed rest
    inferInstanceAs (Decidable (IsFresh label rest.numbers ∧ rest.IsWellFormed))
  | message label _ inner rest =>
    have := decidableIsWellFormed inner
    have := decidableIsWellFormed rest
    inferInstanceAs
      (Decidable (IsFresh label rest.numbers ∧ inner.IsWellFormed ∧ rest.IsWellFormed))
  | messages label _ inner rest =>
    have := decidableIsWellFormed inner
    have := decidableIsWellFormed rest
    inferInstanceAs
      (Decidable (IsFresh label rest.numbers ∧ inner.IsWellFormed ∧ rest.IsWellFormed))
  | dictionary label rest =>
    have := decidableIsWellFormed rest
    inferInstanceAs (Decidable (IsFresh label rest.numbers ∧ rest.IsWellFormed))

def scalarKey (label : Label) (kind : Scalar) : Key := ⟨label.number, kind.wireType⟩

def nestedKey (label : Label) : Key := ⟨label.number, .lengthDelimited⟩

/-- The record of a scalar, or nothing if the scalar is zero. -/
def encodeUnlessZero (label : Label) (kind : Scalar) (v : kind.Carrier) : Bytes :=
  if v = kind.zero then [] else writeKey (scalarKey label kind) ++ kind.encode v

def lengthKey (k : Key) : Nat :=
  lengthVarint (8 * k.number + k.wireType.code)

def lengthUnlessZero (label : Label) (kind : Scalar) (v : kind.Carrier) : Nat :=
  if v = kind.zero then 0 else lengthKey (scalarKey label kind) + kind.encodedLength v

def entryKey : Label := .plain 1 "key"

def entryValue : Label := .plain 2 "value"

def encodeEntry (e : String × Bytes) : Bytes :=
  encodeUnlessZero entryKey .string e.1 ++ encodeUnlessZero entryValue .bytes e.2

def lengthEntry (e : String × Bytes) : Nat :=
  lengthUnlessZero entryKey .string e.1 + lengthUnlessZero entryValue .bytes e.2

/-- How many bytes the record of a nested message takes, given how many the message takes. -/
def lengthNested (label : Label) (inner : Nat) : Nat :=
  lengthKey (nestedKey label) + lengthVarint inner + inner

def encodedLength : (f : Fields) → f.Record → Nat
  | nil, _ => 0
  | scalar label kind rest, (v, m) => lengthUnlessZero label kind v + rest.encodedLength m
  | scalars label kind rest, (vs, m) =>
    vs.foldr (fun v n => lengthKey (scalarKey label kind) + kind.encodedLength v + n)
      (rest.encodedLength m)
  | message label _ inner rest, (v, m) =>
    (match v with
      | none => 0
      | some v => lengthNested label (inner.encodedLength v)) + rest.encodedLength m
  | messages label _ inner rest, (vs, m) =>
    vs.foldr (fun v n => lengthNested label (inner.encodedLength v) + n) (rest.encodedLength m)
  | dictionary label rest, (d, m) =>
    d.entries.foldr (fun e n => lengthNested label (lengthEntry e) + n) (rest.encodedLength m)

/-- The record of a nested message, given its length and its bytes. -/
def encodeNested (label : Label) (length : Nat) (content : Bytes) : Bytes :=
  writeKey (nestedKey label) ++ writeVarint length ++ content

def encode : (f : Fields) → f.Record → Bytes
  | nil, _ => []
  | scalar label kind rest, (v, m) => encodeUnlessZero label kind v ++ rest.encode m
  | scalars label kind rest, (vs, m) =>
    (vs.flatMap fun v => writeKey (scalarKey label kind) ++ kind.encode v) ++ rest.encode m
  | message label _ inner rest, (v, m) =>
    (match v with
      | none => []
      | some v => encodeNested label (inner.encodedLength v) (inner.encode v)) ++ rest.encode m
  | messages label _ inner rest, (vs, m) =>
    (vs.flatMap fun v => encodeNested label (inner.encodedLength v) (inner.encode v)) ++
      rest.encode m
  | dictionary label rest, (d, m) =>
    (d.entries.flatMap fun e => encodeNested label (lengthEntry e) (encodeEntry e)) ++
      rest.encode m

end Fields

end LedgerGateway.Wire
