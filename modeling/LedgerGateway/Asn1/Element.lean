import LedgerGateway.Reading

/-!
# Elements of ASN.1

Certificates and keys are trees of elements. An element has an identifier, a length and so much
content; the content of some is a row of elements again. `read` takes one element off the front of
bytes, by one of two sets of rules (`Form`), and `write` writes one.

By the strict rules the identifier is one byte and the length is written in the fewest bytes, at
most four. By the lenient rules the identifier may go on over five more bytes and the length may be
written in any number of bytes, as long as it says how many.
-/

namespace LedgerGateway.Asn1

/-- The rules an element is read by. -/
inductive Form where
  | strict
  | lenient
deriving DecidableEq, Repr

/-- An element: the first byte of its identifier, the number of its tag, and its content. -/
structure Element where
  identifier : UInt8
  number : Nat
  content : Bytes
deriving DecidableEq, Repr

/-- Goes on reading the number of a tag, seven bits to a byte, over at most so many bytes. -/
def readNumber (n : Nat) : (left : Nat) → (b : Bytes) → Option (Reading Nat b)
  | 0, _ => none
  | _ + 1, [] => none
  | left + 1, x :: rest =>
    let n := (128 * n + x.toNat % 128) % 2 ^ 32
    if x < 128 then some ⟨n, rest, Nat.lt_succ_self _⟩
    else do
      let r ← readNumber n left rest
      return ⟨r.value, r.rest, Nat.lt_succ_of_lt r.shorter⟩

def readIdentifier (form : Form) : (b : Bytes) → Option (Reading (UInt8 × Nat) b)
  | [] => none
  | x :: rest =>
    if x.toNat % 32 < 31 then some ⟨(x, x.toNat % 32), rest, Nat.lt_succ_self _⟩
    else
      match form with
      | .strict => none
      | .lenient => do
        let r ← readNumber 0 5 rest
        return ⟨(x, r.value), r.rest, Nat.lt_succ_of_lt r.shorter⟩

/-- The fewest bytes that write a length of 128 or more. -/
def lengthBytes (n : Nat) : Nat :=
  Nat.log2 n / 8 + 1

/-- Whether a length may be written in so many bytes, when it is not written in one. -/
def Form.allows (form : Form) (n width : Nat) : Bool :=
  match form with
  | .strict => decide (width ≤ 4 ∧ 128 ≤ n ∧ width = lengthBytes n)
  | .lenient => decide (width < 127)

def readLength (form : Form) : (b : Bytes) → Option (Reading Nat b)
  | [] => none
  | x :: rest =>
    if x < 128 then some ⟨x.toNat, rest, Nat.lt_succ_self _⟩
    else
      let width := x.toNat - 128
      let n := Bytes.toNat (rest.take width)
      if width = 0 ∨ rest.length < width ∨ !form.allows n width then none
      else some ⟨n, rest.drop width, by rw [List.length_drop, List.length_cons]; omega⟩

def read (form : Form) (b : Bytes) : Option (Reading Element b) := do
  let identifier ← readIdentifier form b
  let length ← readLength form identifier.rest
  if length.value ≤ length.rest.length then
    return ⟨⟨identifier.value.1, identifier.value.2, length.rest.take length.value⟩,
      length.rest.drop length.value, by
        have := identifier.shorter
        have := length.shorter
        rw [List.length_drop]
        omega⟩
  else none

/-- Reads a row of elements to the end. -/
def readAll (form : Form) (b : Bytes) : Option (List Element) :=
  if b.isEmpty then some []
  else do
    let first ← read form b
    let others ← readAll form first.rest
    return first.value :: others
termination_by b.length
decreasing_by exact first.shorter

/-- Reads the content of one element that takes up all the bytes and has the given identifier. -/
def readWhole (form : Form) (identifier : UInt8) (b : Bytes) : Option Bytes := do
  let e ← read form b
  if e.value.identifier = identifier ∧ e.rest = [] then some e.value.content else none

/-- Writes a length in the fewest bytes. -/
def writeLength (n : Nat) : Bytes :=
  if n < 128 then [UInt8.ofNat n]
  else UInt8.ofNat (128 + lengthBytes n) :: Bytes.bigEndian (lengthBytes n) n

def write (identifier : UInt8) (content : Bytes) : Bytes :=
  identifier :: writeLength content.length ++ content

def boolean : UInt8 := 0x01

def integer : UInt8 := 0x02

def bitString : UInt8 := 0x03

def octetString : UInt8 := 0x04

def objectIdentifier : UInt8 := 0x06

/-- Identifier of a point in time with two digits for the year. -/
def utcTime : UInt8 := 0x17

/-- Identifier of a point in time with four digits for the year. -/
def generalizedTime : UInt8 := 0x18

def sequence : UInt8 := 0x30

/-- Identifier of an element that a context numbers, and that holds elements. -/
def context (number : UInt8) : UInt8 := 0xA0 + number

/-- Identifier of an element that a context numbers, and that holds none. -/
def contextPrimitive (number : UInt8) : UInt8 := 0x80 + number

def tagNumber (identifier : UInt8) : Nat := identifier.toNat % 32

/-- The bytes of a row of bits that has no unused bits. -/
def wholeBits? : Bytes → Option Bytes
  | 0 :: bits => some bits
  | _ => none

/-- The content of an integer that is not negative, in the fewest bytes: a zero byte comes first
where the first bit is set. -/
def naturalContent (n : Nat) : Bytes :=
  Bytes.bigEndian (Nat.log2 n / 8 + 1 + if Nat.log2 n % 8 = 7 then 1 else 0) n

def writeNatural (n : Nat) : Bytes :=
  write integer (naturalContent n)

end LedgerGateway.Asn1
