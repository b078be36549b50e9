import LedgerGateway.Asn1.Element

/-!
# Points in time in certificates

A certificate says from when until when it is valid. Each of the two is a text of digits, with two
or with four digits for the year. `isTime` tells whether the text names a day that there is and a
time of that day. Seconds may be missing, and where the year has four digits, minutes too.
-/

namespace LedgerGateway.X509

def digitValue? (x : UInt8) : Option Nat :=
  if 0x30 ≤ x ∧ x ≤ 0x39 then some (x.toNat - 0x30) else none

def readTwo : Bytes → Option (Nat × Bytes)
  | x :: y :: rest => do
    let x ← digitValue? x
    let y ← digitValue? y
    return (10 * x + y, rest)
  | _ => none

def isLeapYear (year : Nat) : Bool :=
  year % 4 = 0 && (year % 100 ≠ 0 || year % 400 = 0)

def daysInMonth (year month : Nat) : Nat :=
  match month with
  | 1 | 3 | 5 | 7 | 8 | 10 | 12 => 31
  | 4 | 6 | 9 | 11 => 30
  | 2 => if isLeapYear year then 29 else 28
  | _ => 0

def isReal (year month day hour minute second : Nat) : Bool :=
  1 ≤ day && day ≤ daysInMonth year month && hour ≤ 23 && minute ≤ 59 && second ≤ 59

/-- Whether a text is nothing, the letter Z, or a sign with hours and minutes. -/
def isOffset : Bytes → Bool
  | [] => true
  | [0x5A] => true
  | sign :: digits =>
    (sign == 0x2B || sign == 0x2D) &&
      match readTwo digits with
      | some (_, rest) => (readTwo rest).any fun (_, rest) => rest.isEmpty
      | none => false

/-- Whether a text is a point in time with two digits for the year. Years from 50 on belong to the
twentieth century. -/
def isShortTime (b : Bytes) : Bool :=
  Option.isSome do
    let (year, b) ← readTwo b
    let (month, b) ← readTwo b
    let (day, b) ← readTwo b
    let (hour, b) ← readTwo b
    let (minute, b) ← readTwo b
    let (second, b) := (readTwo b).getD (0, b)
    let century := if year < 50 then 2000 else 1900
    guard (isOffset b && isReal (century + year) month day hour minute second)

/-- Whether a text is nothing, or a point and one to three digits. -/
def isFraction : Bytes → Bool
  | [] => true
  | point :: digits =>
    point == 0x2E && 1 ≤ digits.length && digits.length ≤ 3 &&
      digits.all fun x => (digitValue? x).isSome

/-- Whether a text is a point in time with four digits for the year. It ends with the letter Z. -/
def isLongTime (b : Bytes) : Bool :=
  Option.isSome do
    let (century, b) ← readTwo b
    let (year, b) ← readTwo b
    let (month, b) ← readTwo b
    let (day, b) ← readTwo b
    let (hour, b) ← readTwo b
    let b ← [0x5A].isSuffixOf? b
    let (minute, b) := (readTwo b).getD (0, b)
    let (second, b) := (readTwo b).getD (0, b)
    guard (isFraction b && isReal (100 * century + year) month day hour minute second)

def isTime (e : Asn1.Element) : Bool :=
  if e.number = Asn1.tagNumber Asn1.utcTime then isShortTime e.content
  else if e.number = Asn1.tagNumber Asn1.generalizedTime then isLongTime e.content
  else false

end LedgerGateway.X509
