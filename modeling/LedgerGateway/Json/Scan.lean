import LedgerGateway.Bytes

/-!
# Recognising JSON

`isJson` tells whether bytes are one JSON value with nothing but white space around it. It reads one
byte at a time and remembers two things: which arrays and objects are open, and what may come next
(`Place`). Nothing else is needed, so there is no limit to the depth of nesting or to the length of
a number.

The grammar is the strict one. White space is space, tab, line feed and carriage return. A number
has no leading zero and no bare point. A text holds no byte below 0x20 and only the escapes of the
grammar, but an escaped surrogate need not have a partner, and bytes from 0x80 on are not looked at.
-/

namespace LedgerGateway.Json

inductive Container where
  | array
  | object
deriving DecidableEq, Repr

/-- What may come next. -/
inductive Place where
  /-- A value begins here. -/
  | value
  /-- An array was just opened. -/
  | firstItem
  /-- An object was just opened. -/
  | firstMember
  /-- A member follows a comma. -/
  | member
  /-- The name of a member was read. -/
  | colon
  /-- A value was read. -/
  | afterValue
  /-- These bytes of a word are still to come. -/
  | word (rest : List UInt8)
  /-- After the minus sign. -/
  | minus
  /-- After a zero that begins a number. -/
  | zero
  /-- After a digit of the whole part. -/
  | whole
  /-- After the point. -/
  | point
  /-- After a digit of the fraction. -/
  | fraction
  /-- After the letter that announces the exponent. -/
  | exponent
  /-- After the sign of the exponent. -/
  | exponentSign
  /-- After a digit of the exponent. -/
  | power
  /-- Inside a text, which may be the name of a member. -/
  | text (isName : Bool)
  /-- After a backslash. -/
  | escape (isName : Bool)
  /-- So many hexadecimal digits of an escape are still to come. -/
  | unicode (isName : Bool) (left : Nat)
deriving DecidableEq, Repr

/-- How far the reading has come. The innermost open container comes first. -/
structure Scan where
  enclosing : List Container
  place : Place
deriving DecidableEq, Repr

namespace Scan

def start : Scan := ⟨[], .value⟩

def isSpace (x : UInt8) : Bool :=
  x == 0x20 || x == 0x09 || x == 0x0A || x == 0x0D

def isDigit (x : UInt8) : Bool :=
  0x30 ≤ x && x ≤ 0x39

def isLeadingDigit (x : UInt8) : Bool :=
  0x31 ≤ x && x ≤ 0x39

def isHexDigit (x : UInt8) : Bool :=
  isDigit x || (0x41 ≤ x && x ≤ 0x46) || (0x61 ≤ x && x ≤ 0x66)

/-- Whether a byte names one of the escapes of a single letter: `" \ / b f n r t`. -/
def isSimpleEscape (x : UInt8) : Bool :=
  x == 0x22 || x == 0x5C || x == 0x2F || x == 0x62 || x == 0x66 || x == 0x6E || x == 0x72 ||
    x == 0x74

def isExponentMark (x : UInt8) : Bool :=
  x == 0x65 || x == 0x45

def beginValue (enclosing : List Container) (x : UInt8) : Option Scan :=
  if x == 0x5B then some ⟨.array :: enclosing, .firstItem⟩
  else if x == 0x7B then some ⟨.object :: enclosing, .firstMember⟩
  else if x == 0x22 then some ⟨enclosing, .text false⟩
  else if x == 0x2D then some ⟨enclosing, .minus⟩
  else if x == 0x30 then some ⟨enclosing, .zero⟩
  else if isLeadingDigit x then some ⟨enclosing, .whole⟩
  else if x == 0x74 then some ⟨enclosing, .word [0x72, 0x75, 0x65]⟩
  else if x == 0x66 then some ⟨enclosing, .word [0x61, 0x6C, 0x73, 0x65]⟩
  else if x == 0x6E then some ⟨enclosing, .word [0x75, 0x6C, 0x6C]⟩
  else none

/-- A byte after a value: white space, or what the innermost container goes on or ends with. -/
def afterValue (enclosing : List Container) (x : UInt8) : Option Scan :=
  if isSpace x then some ⟨enclosing, .afterValue⟩
  else
    match enclosing with
    | [] => none
    | .array :: outer =>
      if x == 0x2C then some ⟨enclosing, .value⟩
      else if x == 0x5D then some ⟨outer, .afterValue⟩
      else none
    | .object :: outer =>
      if x == 0x2C then some ⟨enclosing, .member⟩
      else if x == 0x7D then some ⟨outer, .afterValue⟩
      else none

def afterText (isName : Bool) : Place :=
  if isName then .colon else .afterValue

def step (s : Scan) (x : UInt8) : Option Scan :=
  let at' (p : Place) : Option Scan := some ⟨s.enclosing, p⟩
  match s.place with
  | .value => if isSpace x then some s else beginValue s.enclosing x
  | .firstItem =>
    if isSpace x then some s
    else if x == 0x5D then some ⟨s.enclosing.tail, .afterValue⟩
    else beginValue s.enclosing x
  | .firstMember =>
    if isSpace x then some s
    else if x == 0x7D then some ⟨s.enclosing.tail, .afterValue⟩
    else if x == 0x22 then at' (.text true)
    else none
  | .member =>
    if isSpace x then some s else if x == 0x22 then at' (.text true) else none
  | .colon =>
    if isSpace x then some s else if x == 0x3A then at' .value else none
  | .afterValue => afterValue s.enclosing x
  | .word [] => afterValue s.enclosing x
  | .word [y] => if x == y then at' .afterValue else none
  | .word (y :: rest) => if x == y then at' (.word rest) else none
  | .minus =>
    if x == 0x30 then at' .zero else if isLeadingDigit x then at' .whole else none
  | .zero =>
    if x == 0x2E then at' .point
    else if isExponentMark x then at' .exponent
    else if isDigit x then none
    else afterValue s.enclosing x
  | .whole =>
    if isDigit x then at' .whole
    else if x == 0x2E then at' .point
    else if isExponentMark x then at' .exponent
    else afterValue s.enclosing x
  | .point => if isDigit x then at' .fraction else none
  | .fraction =>
    if isDigit x then at' .fraction
    else if isExponentMark x then at' .exponent
    else afterValue s.enclosing x
  | .exponent =>
    if x == 0x2B || x == 0x2D then at' .exponentSign
    else if isDigit x then at' .power
    else none
  | .exponentSign => if isDigit x then at' .power else none
  | .power => if isDigit x then at' .power else afterValue s.enclosing x
  | .text isName =>
    if x == 0x22 then at' (afterText isName)
    else if x == 0x5C then at' (.escape isName)
    else if x < 0x20 then none
    else some s
  | .escape isName =>
    if isSimpleEscape x then at' (.text isName)
    else if x == 0x75 then at' (.unicode isName 4)
    else none
  | .unicode isName left =>
    if isHexDigit x then
      at' (if left ≤ 1 then .text isName else .unicode isName (left - 1))
    else none

def run (s : Scan) (b : Bytes) : Option Scan :=
  b.foldlM step s

/-- Whether the reading may end here: nothing is open and a value is complete. A number is complete
wherever its last part has a digit. -/
def isComplete (s : Scan) : Bool :=
  s.enclosing.isEmpty &&
    match s.place with
    | .afterValue | .zero | .whole | .fraction | .power => true
    | _ => false

end Scan

/-- Whether bytes are one JSON value, with white space around it or not. -/
def isJson (b : Bytes) : Bool :=
  match Scan.start.run b with
  | some s => s.isComplete
  | none => false

end LedgerGateway.Json
