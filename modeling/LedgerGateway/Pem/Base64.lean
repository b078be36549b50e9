import LedgerGateway.Bytes

/-!
# Base64

Base64 writes three bytes as four digits of six bits each. Where one or two bytes are left at the
end, two or three digits are enough, and `=` stands for the missing ones. Some bits of the last
digit then belong to no byte; a careful reader asks for them to be zero (`Spare`).

There are three habits. `decodeRows` allows padding wherever a group of four ends, so that encoded
texts can be put one behind the other. `decodePadded` allows it only in the last group. And
`decodeUnpadded` takes the last group either with all of its padding or with none, whatever the
spare bits are.
-/

namespace LedgerGateway.Pem.Base64

def digitValue? (c : UInt8) : Option Nat :=
  let n := c.toNat
  if 0x41 ≤ n ∧ n ≤ 0x5A then some (n - 0x41)
  else if 0x61 ≤ n ∧ n ≤ 0x7A then some (n - 0x61 + 26)
  else if 0x30 ≤ n ∧ n ≤ 0x39 then some (n - 0x30 + 52)
  else if n = 0x2B then some 62
  else if n = 0x2F then some 63
  else none

def digit (v : Nat) : UInt8 :=
  UInt8.ofNat <|
    if v < 26 then 0x41 + v
    else if v < 52 then 0x61 + (v - 26)
    else if v < 62 then 0x30 + (v - 52)
    else if v = 62 then 0x2B
    else 0x2F

/-- The sign for a missing digit. -/
def pad : UInt8 := 0x3D

/-- What the bits of the last digit may be that belong to no byte. -/
inductive Spare where
  | zero
  | any
deriving DecidableEq, Repr

def Spare.allows : Spare → Nat → Bool
  | zero, bits => bits == 0
  | any, _ => true

def decodeTwo (spare : Spare) (a b : UInt8) : Option Bytes := do
  let a ← digitValue? a
  let b ← digitValue? b
  if spare.allows (b % 16) then some [UInt8.ofNat (4 * a + b / 16)] else none

def decodeThree (spare : Spare) (a b c : UInt8) : Option Bytes := do
  let a ← digitValue? a
  let b ← digitValue? b
  let c ← digitValue? c
  if spare.allows (c % 4) then
    some [UInt8.ofNat (4 * a + b / 16), UInt8.ofNat (16 * (b % 16) + c / 4)]
  else none

def decodeFour (a b c d : UInt8) : Option Bytes := do
  let a ← digitValue? a
  let b ← digitValue? b
  let c ← digitValue? c
  let d ← digitValue? d
  return [UInt8.ofNat (4 * a + b / 16), UInt8.ofNat (16 * (b % 16) + c / 4),
    UInt8.ofNat (64 * (c % 4) + d)]

/-- The bytes of a group of four, padded or not. -/
def decodeGroup (spare : Spare) (a b c d : UInt8) : Option Bytes :=
  if d = pad then
    if c = pad then decodeTwo spare a b else decodeThree spare a b c
  else decodeFour a b c d

/-- Decodes groups of four, each of which may be padded. -/
def decodeRows : Bytes → Option Bytes
  | [] => some []
  | a :: b :: c :: d :: rest => do
    let first ← decodeGroup .zero a b c d
    let others ← decodeRows rest
    return first ++ others
  | _ => none

/-- Decodes groups of four, the last of which may be padded. -/
def decodePadded : Bytes → Option Bytes
  | [] => some []
  | [a, b, c, d] => decodeGroup .zero a b c d
  | a :: b :: c :: d :: rest => do
    let first ← decodeFour a b c d
    let others ← decodePadded rest
    return first ++ others
  | _ => none

/-- Decodes groups of four, the last of which may be padded, or be two or three digits. -/
def decodeUnpadded : Bytes → Option Bytes
  | [] => some []
  | [a, b] => decodeTwo .any a b
  | [a, b, c] => decodeThree .any a b c
  | [a, b, c, d] => decodeGroup .any a b c d
  | a :: b :: c :: d :: rest => do
    let first ← decodeFour a b c d
    let others ← decodeUnpadded rest
    return first ++ others
  | _ => none

/-- Writes bytes as digits, with padding. -/
def encode : Bytes → Bytes
  | [] => []
  | [x] =>
    let x := x.toNat
    [digit (x / 4), digit (16 * (x % 4)), pad, pad]
  | [x, y] =>
    let x := x.toNat
    let y := y.toNat
    [digit (x / 4), digit (16 * (x % 4) + y / 16), digit (4 * (y % 16)), pad]
  | x :: y :: z :: rest =>
    let x := x.toNat
    let y := y.toNat
    let z := z.toNat
    digit (x / 4) :: digit (16 * (x % 4) + y / 16) :: digit (4 * (y % 16) + z / 64) ::
      digit (z % 64) :: encode rest

end LedgerGateway.Pem.Base64
