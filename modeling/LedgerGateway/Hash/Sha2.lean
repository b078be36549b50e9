import LedgerGateway.Bytes

/-!
# The SHA-2 hash functions

SHA-256 and SHA-384 are one construction with two sets of numbers (`Sha2`): words of 32 or of 64
bits, and constants to match. A message is padded to whole blocks of sixteen words (`Sha2.pad`),
each block stirs eight working words (`Sha2.compress`), and the digest is cut from what they are in
the end (`Sha2.digest`).

The constants are the first bits of the fractional parts of roots of primes: cube roots for the
rounds, square roots for the words at the start.
-/

namespace LedgerGateway.Hash

/-- The eight working words. -/
structure Words (w : Nat) where
  a : BitVec w
  b : BitVec w
  c : BitVec w
  d : BitVec w
  e : BitVec w
  f : BitVec w
  g : BitVec w
  h : BitVec w
deriving DecidableEq

def Words.toList {w : Nat} (x : Words w) : List (BitVec w) :=
  [x.a, x.b, x.c, x.d, x.e, x.f, x.g, x.h]

def Words.add {w : Nat} (x y : Words w) : Words w :=
  ⟨x.a + y.a, x.b + y.b, x.c + y.c, x.d + y.d, x.e + y.e, x.f + y.f, x.g + y.g, x.h + y.h⟩

/-- The numbers that make one of the hash functions, for words of `w` bits. -/
structure Sha2 (w : Nat) where
  /-- The constants of the rounds. -/
  rounds : List (BitVec w)
  /-- The working words at the start. -/
  initial : Words w
  /-- The three rotations of the first working word. -/
  upperA : Nat × Nat × Nat
  /-- The three rotations of the fifth working word. -/
  upperE : Nat × Nat × Nat
  /-- The two rotations and the shift of the schedule's second word. -/
  lowerFirst : Nat × Nat × Nat
  /-- The two rotations and the shift of the schedule's second last word. -/
  lowerLast : Nat × Nat × Nat
  /-- How many bytes of the words are the digest. -/
  digestLength : Nat

namespace Sha2

variable {w : Nat}

/-- The exclusive or of three rotations. -/
def upper (r : Nat × Nat × Nat) (x : BitVec w) : BitVec w :=
  x.rotateRight r.1 ^^^ x.rotateRight r.2.1 ^^^ x.rotateRight r.2.2

/-- The exclusive or of two rotations and a shift. -/
def lower (r : Nat × Nat × Nat) (x : BitVec w) : BitVec w :=
  x.rotateRight r.1 ^^^ x.rotateRight r.2.1 ^^^ x >>> r.2.2

/-- Takes each bit of `y` or of `z`, as the bit of `x` says. -/
def choose (x y z : BitVec w) : BitVec w :=
  (x &&& y) ^^^ (~~~x &&& z)

/-- Each bit as most of the three words have it. -/
def majority (x y z : BitVec w) : BitVec w :=
  (x &&& y) ^^^ (x &&& z) ^^^ (y &&& z)

/-- The working words after a round with a constant and a word of the message. -/
def round (s : Sha2 w) (x : Words w) (constant word : BitVec w) : Words w :=
  let t := x.h + upper s.upperE x.e + choose x.e x.f x.g + constant + word
  ⟨t + (upper s.upperA x.a + majority x.a x.b x.c), x.a, x.b, x.c, x.d + t, x.e, x.f, x.g⟩

/-- The next word of the schedule, made from the sixteen before it. -/
def nextWord (s : Sha2 w) (last : List (BitVec w)) : BitVec w :=
  lower s.lowerLast (last.getD 14 0) + last.getD 9 0 + lower s.lowerFirst (last.getD 1 0) +
    last.getD 0 0

/-- Runs the rounds that are left. The schedule is made on the way. -/
def runRounds (s : Sha2 w) : List (BitVec w) → List (BitVec w) → Words w → Words w
  | [], _, x => x
  | constant :: rounds, last, x =>
    runRounds s rounds (last.drop 1 ++ [s.nextWord last]) (s.round x constant (last.getD 0 0))

/-- The working words after a block. -/
def compress (s : Sha2 w) (x : Words w) (block : List (BitVec w)) : Words w :=
  x.add (s.runRounds s.rounds block x)

/-- Bytes behind a message: a single bit, zeros, and the number of bits of the message in two
words, so that the whole has blocks of sixteen words. -/
def pad (wordLength : Nat) (message : Bytes) : Bytes :=
  let block := 16 * wordLength
  let filled := message.length + 1 + 2 * wordLength
  message ++ 0x80 :: List.replicate ((block - filled % block) % block) 0 ++
    Bytes.bigEndian (2 * wordLength) (8 * message.length)

/-- Cuts a list into so many pieces of a length. -/
def pieces {α : Type} (length : Nat) : (count : Nat) → List α → List (List α)
  | 0, _ => []
  | count + 1, l => l.take length :: pieces length count (l.drop length)

/-- The words that bytes write, most significant first. -/
def toWords (wordLength : Nat) (b : Bytes) : List (BitVec w) :=
  (pieces wordLength (b.length / wordLength) b).map fun piece => BitVec.ofNat w (Bytes.toNat piece)

def digest (s : Sha2 w) (message : Bytes) : Bytes :=
  let wordLength := w / 8
  let words := toWords wordLength (pad wordLength message)
  let x := (pieces 16 (words.length / 16) words).foldl s.compress s.initial
  (x.toList.flatMap fun word => Bytes.bigEndian wordLength word.toNat).take s.digestLength

end Sha2

def rounds256 : List (BitVec 32) :=
  [0x428A2F98, 0x71374491, 0xB5C0FBCF, 0xE9B5DBA5, 0x3956C25B, 0x59F111F1, 0x923F82A4, 0xAB1C5ED5,
   0xD807AA98, 0x12835B01, 0x243185BE, 0x550C7DC3, 0x72BE5D74, 0x80DEB1FE, 0x9BDC06A7, 0xC19BF174,
   0xE49B69C1, 0xEFBE4786, 0x0FC19DC6, 0x240CA1CC, 0x2DE92C6F, 0x4A7484AA, 0x5CB0A9DC, 0x76F988DA,
   0x983E5152, 0xA831C66D, 0xB00327C8, 0xBF597FC7, 0xC6E00BF3, 0xD5A79147, 0x06CA6351, 0x14292967,
   0x27B70A85, 0x2E1B2138, 0x4D2C6DFC, 0x53380D13, 0x650A7354, 0x766A0ABB, 0x81C2C92E, 0x92722C85,
   0xA2BFE8A1, 0xA81A664B, 0xC24B8B70, 0xC76C51A3, 0xD192E819, 0xD6990624, 0xF40E3585, 0x106AA070,
   0x19A4C116, 0x1E376C08, 0x2748774C, 0x34B0BCB5, 0x391C0CB3, 0x4ED8AA4A, 0x5B9CCA4F, 0x682E6FF3,
   0x748F82EE, 0x78A5636F, 0x84C87814, 0x8CC70208, 0x90BEFFFA, 0xA4506CEB, 0xBEF9A3F7, 0xC67178F2]

def rounds384 : List (BitVec 64) :=
  [0x428A2F98D728AE22, 0x7137449123EF65CD, 0xB5C0FBCFEC4D3B2F, 0xE9B5DBA58189DBBC,
   0x3956C25BF348B538, 0x59F111F1B605D019, 0x923F82A4AF194F9B, 0xAB1C5ED5DA6D8118,
   0xD807AA98A3030242, 0x12835B0145706FBE, 0x243185BE4EE4B28C, 0x550C7DC3D5FFB4E2,
   0x72BE5D74F27B896F, 0x80DEB1FE3B1696B1, 0x9BDC06A725C71235, 0xC19BF174CF692694,
   0xE49B69C19EF14AD2, 0xEFBE4786384F25E3, 0x0FC19DC68B8CD5B5, 0x240CA1CC77AC9C65,
   0x2DE92C6F592B0275, 0x4A7484AA6EA6E483, 0x5CB0A9DCBD41FBD4, 0x76F988DA831153B5,
   0x983E5152EE66DFAB, 0xA831C66D2DB43210, 0xB00327C898FB213F, 0xBF597FC7BEEF0EE4,
   0xC6E00BF33DA88FC2, 0xD5A79147930AA725, 0x06CA6351E003826F, 0x142929670A0E6E70,
   0x27B70A8546D22FFC, 0x2E1B21385C26C926, 0x4D2C6DFC5AC42AED, 0x53380D139D95B3DF,
   0x650A73548BAF63DE, 0x766A0ABB3C77B2A8, 0x81C2C92E47EDAEE6, 0x92722C851482353B,
   0xA2BFE8A14CF10364, 0xA81A664BBC423001, 0xC24B8B70D0F89791, 0xC76C51A30654BE30,
   0xD192E819D6EF5218, 0xD69906245565A910, 0xF40E35855771202A, 0x106AA07032BBD1B8,
   0x19A4C116B8D2D0C8, 0x1E376C085141AB53, 0x2748774CDF8EEB99, 0x34B0BCB5E19B48A8,
   0x391C0CB3C5C95A63, 0x4ED8AA4AE3418ACB, 0x5B9CCA4F7763E373, 0x682E6FF3D6B2B8A3,
   0x748F82EE5DEFB2FC, 0x78A5636F43172F60, 0x84C87814A1F0AB72, 0x8CC702081A6439EC,
   0x90BEFFFA23631E28, 0xA4506CEBDE82BDE9, 0xBEF9A3F7B2C67915, 0xC67178F2E372532B,
   0xCA273ECEEA26619C, 0xD186B8C721C0C207, 0xEADA7DD6CDE0EB1E, 0xF57D4F7FEE6ED178,
   0x06F067AA72176FBA, 0x0A637DC5A2C898A6, 0x113F9804BEF90DAE, 0x1B710B35131C471B,
   0x28DB77F523047D84, 0x32CAAB7B40C72493, 0x3C9EBE0A15C9BEBC, 0x431D67C49C100D4C,
   0x4CC5D4BECB3E42B6, 0x597F299CFC657E2A, 0x5FCB6FAB3AD6FAEC, 0x6C44198C4A475817]

def sha256 : Sha2 32 where
  rounds := rounds256
  initial := ⟨0x6A09E667, 0xBB67AE85, 0x3C6EF372, 0xA54FF53A,
    0x510E527F, 0x9B05688C, 0x1F83D9AB, 0x5BE0CD19⟩
  upperA := (2, 13, 22)
  upperE := (6, 11, 25)
  lowerFirst := (7, 18, 3)
  lowerLast := (17, 19, 10)
  digestLength := 32

def sha384 : Sha2 64 where
  rounds := rounds384
  initial := ⟨0xCBBB9D5DC1059ED8, 0x629A292A367CD507, 0x9159015A3070DD17,
    0x152FECD8F70E5939, 0x67332667FFC00B31, 0x8EB44A8768581511,
    0xDB0C2E0D64F98FA7, 0x47B5481DBEFA4FA4⟩
  upperA := (28, 34, 39)
  upperE := (14, 18, 41)
  lowerFirst := (1, 8, 7)
  lowerLast := (19, 61, 6)
  digestLength := 48

end LedgerGateway.Hash
