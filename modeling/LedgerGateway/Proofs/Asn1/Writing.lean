import LedgerGateway.Asn1.Element
import Mathlib.Algebra.Order.Ring.Nat
import Mathlib.Data.Nat.Log

/-!
# What is written is read

An element that is written is read back, by the strict rules and by the lenient ones, whatever
stands behind it (`reads_write`), as long as its content has fewer than 2³² bytes.  So are rows of
elements (`readAll_write_append`).

An integer that is not negative has one content that the strict rules allow: the first bit is not
set, and no byte could be left out (`natural?`).  This is the content that is written
(`natural?_naturalContent`).
-/

namespace LedgerGateway

/-! ### Numbers in bytes -/

namespace Bytes

theorem toNat_bigEndian : ∀ (width n : Nat), toNat (bigEndian width n) = n % 256 ^ width := by
  intro width
  induction width with
  | zero => intro n; rw [pow_zero, Nat.mod_one]; rfl
  | succ width ih =>
    intro n
    calc toNat (bigEndian (width + 1) n) = 256 * (n / 256 % 256 ^ width) + n % 256 := by
          rw [bigEndian, toNat_append_singleton, ih, UInt8.toNat_ofNat']
      _ = n % (256 * 256 ^ width) := by rw [Nat.mod_mul, Nat.add_comm]
      _ = n % 256 ^ (width + 1) := by rw [Nat.pow_succ']

theorem bigEndian_succ : ∀ (width n : Nat),
    bigEndian (width + 1) n = UInt8.ofNat (n / 256 ^ width) :: bigEndian width n := by
  intro width
  induction width with
  | zero => intro n; rw [pow_zero, Nat.div_one]; rfl
  | succ width ih =>
    intro n
    calc bigEndian (width + 2) n = bigEndian (width + 1) (n / 256) ++ [UInt8.ofNat n] := rfl
      _ = UInt8.ofNat (n / 256 / 256 ^ width) :: bigEndian (width + 1) n := by rw [ih]; rfl
      _ = UInt8.ofNat (n / 256 ^ (width + 1)) :: bigEndian (width + 1) n := by
          rw [Nat.div_div_eq_div_mul, Nat.pow_succ']

end Bytes

namespace Asn1

variable {α : Type} {b : Bytes}

/-- A reading succeeds with this value and leaves these bytes. -/
def Reads (r : Option (Reading α b)) (v : α) (rest : Bytes) : Prop :=
  ∃ h, r = some ⟨v, rest, h⟩

/-! ### Lengths -/

theorem lt_pow_lengthBytes (n : Nat) : n < 256 ^ lengthBytes n := by
  calc n < 2 ^ (Nat.log2 n + 1) := Nat.lt_log2_self
    _ ≤ 2 ^ (8 * lengthBytes n) := Nat.pow_le_pow_right (by decide) (by unfold lengthBytes; omega)
    _ = 256 ^ lengthBytes n := Nat.pow_mul 2 8 _

theorem log2_eq_zero_or_lt {n width : Nat} (hn : n < 256 ^ width) :
    Nat.log2 n = 0 ∨ Nat.log2 n < 8 * width := by
  by_cases hzero : n = 0
  · rw [hzero]
    exact .inl Nat.log2_zero
  · refine .inr ((Nat.log2_lt hzero).mpr ?_)
    rw [Nat.pow_mul]
    exact hn

theorem lengthBytes_le_four {n : Nat} (hn : n < 256 ^ 4) : lengthBytes n ≤ 4 := by
  unfold lengthBytes
  rcases log2_eq_zero_or_lt hn with hlog | hlog <;> omega

theorem readLength_short (form : Form) {x : UInt8} (hx : x < 128) (rest : Bytes) :
    Reads (readLength form (x :: rest)) x.toNat rest := by
  rw [readLength, if_pos hx]
  exact ⟨_, rfl⟩

theorem readLength_long (form : Form) {x : UInt8} (hx : ¬ x < 128) {digits : Bytes}
    (hpos : 0 < digits.length) (hwidth : x.toNat - 128 = digits.length)
    (hallows : form.allows (Bytes.toNat digits) digits.length = true) (rest : Bytes) :
    Reads (readLength form (x :: (digits ++ rest))) (Bytes.toNat digits) rest := by
  have hok : ¬ (digits.length = 0 ∨ (digits ++ rest).length < digits.length ∨
      (!form.allows (Bytes.toNat digits) digits.length) = true) := by
    rw [hallows, List.length_append]
    simp only [Bool.not_true, Bool.false_eq_true, or_false]
    omega
  rw [readLength, if_neg hx]
  simp only [hwidth, List.take_left, List.drop_left, hok, if_false]
  exact ⟨_, rfl⟩

theorem reads_writeLength (form : Form) {n : Nat} (hn : n < 256 ^ 4) (rest : Bytes) :
    Reads (readLength form (writeLength n ++ rest)) n rest := by
  by_cases hshort : n < 128
  · have hbyte : (UInt8.ofNat n).toNat = n := UInt8.toNat_ofNat_of_lt' (show n < 256 by omega)
    have hlt : UInt8.ofNat n < 128 := by rw [UInt8.lt_iff_toNat_lt, hbyte]; exact hshort
    have h := readLength_short form hlt rest
    rw [hbyte] at h
    rw [writeLength, if_pos hshort]
    exact h
  · have hfour := lengthBytes_le_four hn
    have hbyte : (UInt8.ofNat (128 + lengthBytes n)).toNat = 128 + lengthBytes n :=
      UInt8.toNat_ofNat_of_lt' (show 128 + lengthBytes n < 256 by omega)
    have hlt : ¬ UInt8.ofNat (128 + lengthBytes n) < 128 := by
      rw [UInt8.lt_iff_toNat_lt, hbyte]
      exact Nat.not_lt.mpr (Nat.le_add_right _ _)
    have hvalue : Bytes.toNat (Bytes.bigEndian (lengthBytes n) n) = n := by
      rw [Bytes.toNat_bigEndian, Nat.mod_eq_of_lt (lt_pow_lengthBytes n)]
    have hlength := Bytes.length_bigEndian (lengthBytes n) n
    have hpos : 0 < (Bytes.bigEndian (lengthBytes n) n).length := by
      rw [hlength]
      exact Nat.succ_pos _
    have hallows : form.allows n (lengthBytes n) = true := by
      cases form with
      | strict => exact decide_eq_true ⟨hfour, Nat.not_lt.mp hshort, rfl⟩
      | lenient => exact decide_eq_true (by omega)
    have h := readLength_long form hlt hpos (by rw [hlength, hbyte]; omega)
      (by rw [hvalue, hlength]; exact hallows) rest
    rw [hvalue] at h
    rw [writeLength, if_neg hshort]
    exact h

theorem length_writeLength_le {n : Nat} (hn : n < 256 ^ 4) : (writeLength n).length ≤ 5 := by
  have hfour := lengthBytes_le_four hn
  unfold writeLength
  split
  · exact (by decide : 1 ≤ 5)
  · rw [List.length_cons, Bytes.length_bigEndian]
    omega

/-! ### Elements -/

/-- The element that is written with an identifier and a content. -/
def Element.ofContent (identifier : UInt8) (content : Bytes) : Element :=
  ⟨identifier, identifier.toNat % 32, content⟩

section Element

variable {identifier : UInt8} {content : Bytes}

theorem length_write_le (hcontent : content.length < 256 ^ 4) :
    (write identifier content).length ≤ content.length + 6 := by
  have hlength := length_writeLength_le hcontent
  rw [write, List.length_append, List.length_cons]
  omega

theorem readIdentifier_cons (form : Form) (h : identifier.toNat % 32 < 31) (rest : Bytes) :
    readIdentifier form (identifier :: rest) =
      some ⟨(identifier, identifier.toNat % 32), rest, Nat.lt_succ_self _⟩ := if_pos h

theorem reads_write (form : Form) (hidentifier : identifier.toNat % 32 < 31)
    (hcontent : content.length < 256 ^ 4) (rest : Bytes) :
    Reads (read form (write identifier content ++ rest)) (.ofContent identifier content) rest := by
  obtain ⟨hshorter, hlength⟩ := reads_writeLength form hcontent (content ++ rest)
  have hfits : content.length ≤ (content ++ rest).length := by
    rw [List.length_append]
    exact Nat.le_add_right _ _
  rw [write, List.cons_append, List.cons_append, List.append_assoc, read,
    readIdentifier_cons form hidentifier]
  simp only [Option.bind_eq_bind, Option.bind_some, hlength, hfits, if_true, List.take_left,
    List.drop_left]
  exact ⟨_, rfl⟩

theorem readAll_nil (form : Form) : readAll form [] = some [] := by
  rw [readAll, List.isEmpty_nil, if_pos rfl]

theorem readAll_write_append (form : Form) (hidentifier : identifier.toNat % 32 < 31)
    (hcontent : content.length < 256 ^ 4) (rest : Bytes) :
    readAll form (write identifier content ++ rest) =
      (readAll form rest).map (Element.ofContent identifier content :: ·) := by
  obtain ⟨hshorter, hread⟩ := reads_write form hidentifier hcontent rest
  rw [readAll, if_neg (by simp [write]), hread, Option.bind_eq_bind, Option.bind_some]
  cases readAll form rest with
  | none => rfl
  | some others => rfl

theorem readWhole_write (form : Form) (hidentifier : identifier.toNat % 32 < 31)
    (hcontent : content.length < 256 ^ 4) :
    readWhole form identifier (write identifier content) = some content := by
  have h := reads_write form hidentifier hcontent []
  rw [List.append_nil] at h
  obtain ⟨hshorter, hread⟩ := h
  rw [readWhole, hread]
  exact if_pos ⟨rfl, rfl⟩

end Element

/-! ### Rows of elements -/

section Row

variable {es : List Element} {n : Nat}

def writeRow (es : List Element) : Bytes :=
  es.flatMap fun e => write e.identifier e.content

/-- The element is what is read where it was written, if its content has so many bytes at most. -/
structure Element.IsReadable (n : Nat) (e : Element) : Prop where
  number_eq : e.number = e.identifier.toNat % 32
  number_lt : e.number < 31
  length_le : e.content.length ≤ n

theorem Element.isReadable_ofContent {identifier : UInt8} {content : Bytes}
    (hidentifier : identifier.toNat % 32 < 31) (hcontent : content.length ≤ n) :
    (Element.ofContent identifier content).IsReadable n :=
  ⟨rfl, hidentifier, hcontent⟩

theorem length_writeRow_le (h : ∀ e ∈ es, e.IsReadable n) (hn : n < 256 ^ 4) :
    (writeRow es).length ≤ es.length * (n + 6) := by
  induction es with
  | nil => exact Nat.zero_le _
  | cons e es ih =>
    obtain ⟨he, hes⟩ := List.forall_mem_cons.mp h
    have hlength := he.length_le
    have hwrite : (write e.identifier e.content).length ≤ e.content.length + 6 :=
      length_write_le (by omega)
    have hrest : (writeRow es).length ≤ es.length * (n + 6) := ih hes
    rw [writeRow, List.flatMap_cons, List.length_append, List.length_cons, Nat.succ_mul, ← writeRow]
    omega

/-- A row that is written is read. -/
theorem readAll_writeRow (form : Form) (h : ∀ e ∈ es, e.IsReadable n) (hn : n < 256 ^ 4) :
    readAll form (writeRow es) = some es := by
  induction es with
  | nil => exact readAll_nil form
  | cons e es ih =>
    obtain ⟨he, hes⟩ := List.forall_mem_cons.mp h
    have hrest : readAll form (writeRow es) = some es := ih hes
    have hself : Element.ofContent e.identifier e.content = e := by
      rw [Element.ofContent, ← he.number_eq]
    rw [writeRow, List.flatMap_cons, ← writeRow,
      readAll_write_append form (he.number_eq ▸ he.number_lt) (Nat.lt_of_le_of_lt he.length_le hn),
      hrest, hself, Option.map_some]

end Row

/-! ### Integers -/

/-- The integer that is not negative and has this content by the strict rules. -/
def natural? : Bytes → Option Nat
  | [] => none
  | x :: rest =>
    if x < 128 ∧ (x = 0 → rest.head?.all (128 ≤ ·)) then some (Bytes.toNat (x :: rest)) else none

def naturalWidth (n : Nat) : Nat :=
  Nat.log2 n / 8 + 1 + if Nat.log2 n % 8 = 7 then 1 else 0

theorem naturalContent_eq (n : Nat) : naturalContent n = Bytes.bigEndian (naturalWidth n) n := rfl

theorem naturalWidth_le_of_lt {n width : Nat} (h : n < 256 ^ width) :
    naturalWidth n ≤ width + 1 := by
  unfold naturalWidth
  rcases log2_eq_zero_or_lt h with hlog | hlog <;> split <;> omega

theorem length_naturalContent_le {n width : Nat} (h : n < 256 ^ width) :
    (naturalContent n).length ≤ width + 1 := by
  rw [naturalContent_eq, Bytes.length_bigEndian]
  exact naturalWidth_le_of_lt h

theorem lt_naturalWidth (n : Nat) : n < 128 * 256 ^ (naturalWidth n - 1) := by
  calc n < 2 ^ (Nat.log2 n + 1) := Nat.lt_log2_self
    _ ≤ 2 ^ (7 + 8 * (naturalWidth n - 1)) :=
        Nat.pow_le_pow_right (by decide) (by unfold naturalWidth; split <;> omega)
    _ = 128 * 256 ^ (naturalWidth n - 1) := by rw [Nat.pow_add, Nat.pow_mul]

theorem le_of_naturalWidth {n width : Nat} (h : naturalWidth n = width + 2) :
    128 * 256 ^ width ≤ n := by
  have hlog : 7 + 8 * width ≤ Nat.log2 n := by
    unfold naturalWidth at h
    split at h <;> omega
  have hne : n ≠ 0 := by
    intro hzero
    rw [hzero, Nat.log2_zero] at hlog
    omega
  calc 128 * 256 ^ width = 2 ^ (7 + 8 * width) := by rw [Nat.pow_add, Nat.pow_mul]
    _ ≤ 2 ^ Nat.log2 n := Nat.pow_le_pow_right (by decide) hlog
    _ ≤ n := Nat.log2_self_le hne

theorem natural?_naturalContent (n : Nat) : natural? (naturalContent n) = some n := by
  obtain ⟨width, hwidth⟩ : ∃ width, naturalWidth n = width + 1 :=
    ⟨naturalWidth n - 1, by unfold naturalWidth; omega⟩
  have hlt : n < 128 * 256 ^ width := by
    have h := lt_naturalWidth n
    rwa [hwidth, Nat.add_sub_cancel] at h
  have hquotient : n / 256 ^ width < 128 :=
    Nat.div_lt_of_lt_mul (by rwa [Nat.mul_comm])
  have hvalue : Bytes.toNat (Bytes.bigEndian (width + 1) n) = n := by
    rw [Bytes.toNat_bigEndian, Nat.mod_eq_of_lt]
    rw [Nat.pow_succ]
    omega
  have hbyte : (UInt8.ofNat (n / 256 ^ width)).toNat = n / 256 ^ width :=
    UInt8.toNat_ofNat_of_lt' (show n / 256 ^ width < 256 by omega)
  rw [Bytes.bigEndian_succ] at hvalue
  rw [naturalContent_eq, hwidth, Bytes.bigEndian_succ]
  refine (if_pos ⟨?_, ?_⟩).trans (congrArg some hvalue)
  · rw [UInt8.lt_iff_toNat_lt, hbyte]
    exact hquotient
  · -- Where the first byte is zero, the first bit of the next one is set.
    intro hzero
    rw [← UInt8.toNat_inj, hbyte] at hzero
    cases width with
    | zero => rfl
    | succ width =>
      have hle : 128 ≤ n / 256 ^ width :=
        (Nat.le_div_iff_mul_le (Nat.pow_pos (by decide))).mpr (le_of_naturalWidth hwidth)
      have hlt : n / 256 ^ width < 256 := by
        have hmod : n < 256 ^ (width + 1) := Nat.lt_of_div_eq_zero (Nat.pow_pos (by decide)) hzero
        exact Nat.div_lt_of_lt_mul (by rwa [Nat.pow_succ] at hmod)
      have hnext : (UInt8.ofNat (n / 256 ^ width)).toNat = n / 256 ^ width :=
        UInt8.toNat_ofNat_of_lt' hlt
      rw [Bytes.bigEndian_succ, List.head?_cons, Option.all_some, decide_eq_true_iff,
        UInt8.le_iff_toNat_le, hnext]
      exact hle

/-- The integer that is not negative and that an element holds. -/
def Element.natural? (e : Element) : Option Nat :=
  if e.identifier = integer then Asn1.natural? e.content else none

/-! ### Written integers -/

def Element.ofNatural (n : Nat) : Element := .ofContent integer (naturalContent n)

theorem Element.natural?_ofNatural (n : Nat) : (Element.ofNatural n).natural? = some n :=
  (if_pos rfl).trans (natural?_naturalContent n)

section Natural

variable {n width : Nat}

theorem length_writeNatural_le (hn : n < 256 ^ width) (hwidth : width + 1 < 256 ^ 4) :
    (writeNatural n).length ≤ width + 7 := by
  have hcontent := length_naturalContent_le hn
  have hwrite : (writeNatural n).length ≤ (naturalContent n).length + 6 :=
    length_write_le (by omega)
  omega

theorem readAll_writeNatural_append (form : Form) (hn : n < 256 ^ width)
    (hwidth : width + 1 < 256 ^ 4) (rest : Bytes) :
    readAll form (writeNatural n ++ rest) = (readAll form rest).map (Element.ofNatural n :: ·) := by
  have hcontent := length_naturalContent_le hn
  exact readAll_write_append form (by decide) (by omega) rest

end Natural

end Asn1

end LedgerGateway
