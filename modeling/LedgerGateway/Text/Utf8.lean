import LedgerGateway.Bytes

/-!
# Texts as bytes

A text is written as bytes in UTF-8. `encodeUtf8` writes one and `decodeUtf8?` reads one back,
refusing whatever no text is written as: the two undo each other exactly.

A payload that has to be shown may not be a text at all. `decodeLossy` shows it anyway. It replaces
by U+FFFD every ill-formed stretch, a stretch being the longest run of bytes that begins a character
and breaks off before it is complete, or else a single byte that begins no character. What
`encodeUtf8` writes has no such stretch and is shown as it is.
-/

namespace LedgerGateway.Text

def encodeUtf8 (s : String) : Bytes :=
  s.toByteArray.data.toList

def decodeUtf8? (b : Bytes) : Option String :=
  String.fromUTF8? ⟨b.toArray⟩

theorem decodeUtf8?_encodeUtf8 : ∀ s : String, decodeUtf8? (encodeUtf8 s) = some s := by
  intro s
  have h : (⟨(encodeUtf8 s).toArray⟩ : ByteArray) = s.toByteArray := by simp [encodeUtf8]
  rw [decodeUtf8?, h, String.fromUTF8?]
  exact dif_pos s.isValidUTF8

theorem encodeUtf8_of_decodeUtf8? : ∀ {b : Bytes} {s : String},
    decodeUtf8? b = some s → encodeUtf8 s = b := by
  intro b s h
  simp only [decodeUtf8?, String.fromUTF8?] at h
  split at h
  · cases h
    simp [encodeUtf8, String.fromUTF8]
  · cases h

/-- **Reading accepts exactly what writing produces.** -/
theorem decodeUtf8?_eq_some_iff : ∀ {b : Bytes} {s : String},
    decodeUtf8? b = some s ↔ b = encodeUtf8 s := by
  intro b s
  constructor
  · intro h
    exact (encodeUtf8_of_decodeUtf8? h).symm
  · intro h
    rw [h, decodeUtf8?_encodeUtf8]

/-- What the first byte of a character promises: how many bytes follow it, between which bounds the
first of these lies, and the bits it contributes itself. -/
structure Lead where
  more : Nat
  low : Nat
  high : Nat
  bits : Nat

/-- The promise of a byte, unless no character begins with it. The bounds leave out the overlong
forms, the surrogates and what lies beyond U+10FFFF. -/
def lead? (x : UInt8) : Option Lead :=
  let n := x.toNat
  if n < 0x80 then some ⟨0, 0x80, 0xBF, n⟩
  else if n < 0xC2 then none
  else if n < 0xE0 then some ⟨1, 0x80, 0xBF, n - 0xC0⟩
  else if n = 0xE0 then some ⟨2, 0xA0, 0xBF, 0⟩
  else if n = 0xED then some ⟨2, 0x80, 0x9F, 13⟩
  else if n < 0xF0 then some ⟨2, 0x80, 0xBF, n - 0xE0⟩
  else if n = 0xF0 then some ⟨3, 0x90, 0xBF, 0⟩
  else if n < 0xF4 then some ⟨3, 0x80, 0xBF, n - 0xF0⟩
  else if n = 0xF4 then some ⟨3, 0x80, 0x8F, 4⟩
  else none

/-- Reads the bytes that a first byte promised, as far as they are there. Gives the code point if
all are, and what is left in either case. -/
def follow (more low high bits : Nat) : Bytes → Option Nat × Bytes
  | [] => (if more = 0 then some bits else none, [])
  | x :: rest =>
    match more with
    | 0 => (some bits, x :: rest)
    | more + 1 =>
      if low ≤ x.toNat ∧ x.toNat ≤ high then
        follow more 0x80 0xBF (64 * bits + (x.toNat - 0x80)) rest
      else (none, x :: rest)

theorem length_follow : ∀ (b : Bytes) (more low high bits : Nat),
    (follow more low high bits b).2.length ≤ b.length := by
  intro b
  induction b with
  | nil => intro more low high bits; simp [follow]
  | cons x rest ih =>
    intro more low high bits
    cases more with
    | zero => simp [follow]
    | succ more =>
      simp only [follow]
      split
      · have := ih more 0x80 0xBF (64 * bits + (x.toNat - 0x80))
        simp only [List.length_cons]
        omega
      · exact Nat.le_refl _

/-- The sign for what is not a character. -/
def replacement : Char := '\uFFFD'

/-- Reads one character, or one ill-formed stretch as the replacement sign. -/
def nextLossy (x : UInt8) (rest : Bytes) : Char × Bytes :=
  match lead? x with
  | none => (replacement, rest)
  | some l =>
    match follow l.more l.low l.high l.bits rest with
    | (some n, left) => (Char.ofNat n, left)
    | (none, left) => (replacement, left)

theorem length_nextLossy : ∀ (x : UInt8) (rest : Bytes),
    (nextLossy x rest).2.length ≤ rest.length := by
  intro x rest
  simp only [nextLossy]
  split
  · exact Nat.le_refl _
  · rename_i l _
    have h := length_follow rest l.more l.low l.high l.bits
    split <;> simp_all

/-- Shows the bytes after what is already shown. -/
def decodeLossyOnto (shown : String) : Bytes → String
  | [] => shown
  | x :: rest =>
    decodeLossyOnto (shown.push (nextLossy x rest).1) (nextLossy x rest).2
termination_by b => b.length
decreasing_by
  have := length_nextLossy x rest
  simp only [List.length_cons]
  omega

/-- The bytes as a text, each ill-formed stretch replaced by U+FFFD. -/
def decodeLossy (b : Bytes) : String :=
  decodeLossyOnto "" b

end LedgerGateway.Text
