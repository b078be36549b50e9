/-!
# Bytes

What this client signs, sends and reads is a finite sequence of bytes, `Bytes`. Two spellings of
such a sequence are needed throughout. `Bytes.hex` writes two lower-case digits a byte, which is how
a transaction id is shown. `Bytes.bigEndian` writes a natural number in a fixed number of bytes,
most significant first, and `Bytes.toNat` reads such a number; hash words, curve coordinates and
private keys are all written this way.
-/

namespace LedgerGateway

abbrev Bytes := List UInt8

namespace Bytes

def hexDigit (n : Nat) : Char :=
  if n < 10 then Char.ofNat (48 + n) else Char.ofNat (87 + n)

/-- Two lower-case hexadecimal digits for each byte. -/
def hex (b : Bytes) : String :=
  String.ofList (b.flatMap fun x => [hexDigit (x.toNat / 16), hexDigit (x.toNat % 16)])

/-- The low `width` bytes of a number, most significant first. -/
def bigEndian : (width : Nat) → Nat → Bytes
  | 0, _ => []
  | width + 1, n => bigEndian width (n / 256) ++ [UInt8.ofNat n]

/-- The number that bytes write, most significant first. -/
def toNat (b : Bytes) : Nat :=
  b.foldl (fun n x => 256 * n + x.toNat) 0

theorem length_bigEndian : ∀ (width n : Nat), (bigEndian width n).length = width := by
  intro width
  induction width with
  | zero => intro n; rfl
  | succ width ih => intro n; simp [bigEndian, ih]

theorem toNat_append_singleton : ∀ (b : Bytes) (x : UInt8),
    toNat (b ++ [x]) = 256 * toNat b + x.toNat := by
  intro b x
  simp [toNat]

end Bytes

end LedgerGateway
