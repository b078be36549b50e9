/-!
# Durations

A time limit is a whole number of nanoseconds. It is shown in two ways. To a person it is shown in
the largest of the units s, ms, µs and ns that it reaches, with the fraction written out and no
zeros at its end (`Duration.text`). To a peer it is sent in at most eight digits, in the smallest of
the units n, u, m, S, M and H for which eight digits suffice, rounded down (`Duration.header`).
-/

namespace LedgerGateway

structure Duration where
  nanoseconds : Nat
deriving DecidableEq, Repr

namespace Duration

def ofSeconds (n : Nat) : Duration := ⟨n * 1000000000⟩

/-- The decimal digits of the fraction `part / size`, without the zeros at the end. The size is a
power of ten, and larger than the part. -/
def fraction (size part : Nat) : List Char :=
  let digits := (Nat.toDigits 10 (size + part)).drop 1
  (digits.reverse.dropWhile (· == '0')).reverse

/-- The quotient of `n` by the size of a unit in full, and the unit. -/
def inUnit (n size : Nat) (unit : String) : String :=
  let whole := toString (n / size)
  match fraction size (n % size) with
  | [] => whole ++ unit
  | digits => whole ++ "." ++ String.ofList digits ++ unit

/-- The span as a person reads it. -/
def text (d : Duration) : String :=
  if 1000000000 ≤ d.nanoseconds then inUnit d.nanoseconds 1000000000 "s"
  else if 1000000 ≤ d.nanoseconds then inUnit d.nanoseconds 1000000 "ms"
  else if 1000 ≤ d.nanoseconds then inUnit d.nanoseconds 1000 "µs"
  else inUnit d.nanoseconds 1 "ns"

/-- The units of the deadline header, each with its nanoseconds. -/
def headerUnits : List (Nat × String) :=
  [(1, "n"), (1000, "u"), (1000000, "m"), (1000000000, "S"), (60000000000, "M")]

/-- The span as the deadline header of a call carries it. -/
def header (d : Duration) : String :=
  match headerUnits.find? fun (size, _) => d.nanoseconds / size ≤ 99999999 with
  | some (size, unit) => toString (d.nanoseconds / size) ++ unit
  | none => toString (d.nanoseconds / 3600000000000) ++ "H"

end Duration

end LedgerGateway
