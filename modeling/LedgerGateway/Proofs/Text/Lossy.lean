import LedgerGateway.Text.Utf8
import Mathlib.Algebra.Ring.Nat
import Mathlib.Data.Nat.Basic
import Mathlib.Tactic.SplitIfs

/-!
# Showing bytes piece by piece

`decodeLossy` groups bytes into characters and ill-formed stretches, so that in general the text of
`a ++ b` is not the text of `a` before the text of `b`.  It is where `b` begins with an ASCII byte:
no character and no ill-formed stretch reaches across such a byte (`decodeLossy_append`).  An ASCII
byte itself is shown as its character (`decodeLossy_cons_of_ascii`), and what any other byte begins
is shown as a character outside ASCII (`nextLossy_not_ascii`) and takes only such bytes with it
(`exists_nextLossy`).  So a format whose tokens are ASCII can be followed on the bytes.

Nothing is replaced in the bytes of a text: they are shown as that text
(`decodeLossy_encodeUtf8`).
-/

namespace LedgerGateway.Text

/-- The first byte, if there is one, is ASCII. -/
def StartsAscii (b : Bytes) : Prop := ∀ x ∈ b.head?, x < 0x80

theorem startsAscii_nil : StartsAscii [] := by
  intro x hx
  cases hx

theorem startsAscii_cons {x : UInt8} (hx : x < 0x80) (b : Bytes) : StartsAscii (x :: b) := by
  intro y hy
  cases hy
  exact hx

/-! ### One step -/

theorem follow_append : ∀ (a : Bytes) {b : Bytes}, StartsAscii b →
    ∀ (more low high bits : Nat), 0x80 ≤ low →
      follow more low high bits (a ++ b) =
        ((follow more low high bits a).1, (follow more low high bits a).2 ++ b) := by
  intro a
  induction a with
  | nil =>
    intro b hb more low high bits hlow
    cases b with
    | nil => simp [follow]
    | cons x b =>
      have hx : x.toNat < 0x80 := UInt8.lt_iff_toNat_lt.mp (hb x rfl)
      cases more with
      | zero => simp [follow]
      | succ more =>
        -- A character that is not complete ends in front of an ASCII byte.
        have hout : ¬(low ≤ x.toNat ∧ x.toNat ≤ high) := by omega
        simp [follow, hout]
  | cons y a ih =>
    intro b hb more low high bits hlow
    cases more with
    | zero => simp [follow]
    | succ more =>
      simp only [List.cons_append, follow]
      split
      · exact ih hb more 0x80 0xBF _ le_rfl
      · rfl

/-- The bytes that are promised are not ASCII. -/
theorem le_low_of_lead? {x : UInt8} {l : Lead} (h : lead? x = some l) : 0x80 ≤ l.low := by
  simp only [lead?] at h
  split_ifs at h <;> cases h <;> simp only <;> omega

theorem nextLossy_append (x : UInt8) (a : Bytes) {b : Bytes} (hb : StartsAscii b) :
    nextLossy x (a ++ b) = ((nextLossy x a).1, (nextLossy x a).2 ++ b) := by
  simp only [nextLossy]
  cases hl : lead? x with
  | none => rfl
  | some l =>
    simp only
    rw [follow_append a hb _ _ _ _ (le_low_of_lead? hl)]
    cases follow l.more l.low l.high l.bits a with
    | mk n left => cases n <;> rfl

theorem nextLossy_of_ascii {x : UInt8} (hx : x < 0x80) (a : Bytes) :
    nextLossy x a = (Char.ofNat x.toNat, a) := by
  have hn : x.toNat < 0x80 := UInt8.lt_iff_toNat_lt.mp hx
  have hlead : lead? x = some ⟨0, 0x80, 0xBF, x.toNat⟩ := by simp [lead?, hn]
  cases a <;> simp [nextLossy, hlead, follow]

/-! ### Characters by their numbers -/

theorem toNat_ofNat {n : Nat} (h : n.isValidChar) : (Char.ofNat n).toNat = n := by
  rw [Char.ofNat, dif_pos h]
  rfl

theorem toNat_ofNat_of_ascii {x : UInt8} (hx : x < 0x80) :
    (Char.ofNat x.toNat).toNat = x.toNat := by
  have hn : x.toNat < 0x80 := UInt8.lt_iff_toNat_lt.mp hx
  exact toNat_ofNat (.inl (by omega))

/-! ### Bytes outside ASCII -/

/-- Nothing but bytes outside ASCII. -/
def IsHigh (b : Bytes) : Prop := ∀ x ∈ b, ¬ x < 0x80

theorem exists_follow : ∀ (a : Bytes) (more low high bits : Nat), 0x80 ≤ low →
    ∃ taken, a = taken ++ (follow more low high bits a).2 ∧ IsHigh taken := by
  intro a
  induction a with
  | nil => intro more low high bits _; exact ⟨[], by simp [follow], List.forall_mem_nil _⟩
  | cons x a ih =>
    intro more low high bits hlow
    cases more with
    | zero => exact ⟨[], by simp [follow], List.forall_mem_nil _⟩
    | succ more =>
      by_cases hx : low ≤ x.toNat ∧ x.toNat ≤ high
      · obtain ⟨taken, ha, htaken⟩ := ih more 0x80 0xBF (64 * bits + (x.toNat - 0x80)) le_rfl
        have hhigh : ¬ x < 0x80 := by
          rw [UInt8.lt_iff_toNat_lt]
          exact Nat.not_lt.mpr (Nat.le_trans hlow hx.1)
        refine ⟨x :: taken, ?_, List.forall_mem_cons.mpr ⟨hhigh, htaken⟩⟩
        rw [follow, if_pos hx, List.cons_append, ← ha]
      · exact ⟨[], by rw [follow, if_neg hx]; rfl, List.forall_mem_nil _⟩

/-- What a byte takes of the bytes behind it is not ASCII. -/
theorem exists_nextLossy (x : UInt8) (a : Bytes) :
    ∃ taken, a = taken ++ (nextLossy x a).2 ∧ IsHigh taken := by
  simp only [nextLossy]
  cases hl : lead? x with
  | none => exact ⟨[], rfl, List.forall_mem_nil _⟩
  | some l =>
    have h := exists_follow a l.more l.low l.high l.bits (le_low_of_lead? hl)
    simp only
    split <;> simp_all

/-- Each byte that is followed adds six bits. -/
theorem follow_bounds : ∀ (a : Bytes) (more bits n : Nat),
    (follow more 0x80 0xBF bits a).1 = some n →
      64 ^ more * bits ≤ n ∧ n < 64 ^ more * (bits + 1) := by
  intro a
  induction a with
  | nil =>
    intro more bits n h
    simp only [follow] at h
    split_ifs at h with hmore
    cases h
    simp [hmore]
  | cons x a ih =>
    intro more bits n h
    cases more with
    | zero =>
      simp only [follow, Option.some.injEq] at h
      omega
    | succ more =>
      simp only [follow] at h
      split_ifs at h with hx
      obtain ⟨hle, hlt⟩ := ih more _ n h
      have hlow : 64 ^ more * (64 * bits) ≤ 64 ^ more * (64 * bits + (x.toNat - 0x80)) :=
        Nat.mul_le_mul_left _ (by omega)
      have hhigh : 64 ^ more * (64 * bits + (x.toNat - 0x80) + 1) ≤ 64 ^ more * (64 * (bits + 1)) :=
        Nat.mul_le_mul_left _ (by omega)
      rw [Nat.pow_succ, Nat.mul_assoc, Nat.mul_assoc]
      omega

/-- The bounds of the first byte that is followed are bounds of the number. -/
theorem follow_succ_bounds {a : Bytes} {more low high bits n : Nat}
    (h : (follow (more + 1) low high bits a).1 = some n) :
    64 ^ more * (64 * bits + (low - 0x80)) ≤ n ∧
      n < 64 ^ more * (64 * bits + (high - 0x80) + 1) := by
  cases a with
  | nil => simp [follow] at h
  | cons x a =>
    simp only [follow] at h
    split_ifs at h with hx
    obtain ⟨hle, hlt⟩ := follow_bounds a more _ n h
    have hlow : 64 ^ more * (64 * bits + (low - 0x80)) ≤
        64 ^ more * (64 * bits + (x.toNat - 0x80)) := Nat.mul_le_mul_left _ (by omega)
    have hhigh : 64 ^ more * (64 * bits + (x.toNat - 0x80) + 1) ≤
        64 ^ more * (64 * bits + (high - 0x80) + 1) := Nat.mul_le_mul_left _ (by omega)
    omega

/-- A number that is read is that of a character, and not of one in ASCII unless the first byte
is. -/
theorem isValidChar_of_follow {x : UInt8} {l : Lead} (hl : lead? x = some l) (hx : 0x80 ≤ x.toNat)
    {a : Bytes} {n : Nat} (h : (follow l.more l.low l.high l.bits a).1 = some n) :
    n.isValidChar ∧ 0x80 ≤ n := by
  simp only [lead?] at hl
  rw [Nat.isValidChar]
  split_ifs at hl <;> cases hl <;> first
    | omega
    | (have hbounds := follow_succ_bounds h
       simp only [Nat.reducePow] at hbounds
       omega)

/-- **A byte outside ASCII begins a character outside ASCII**, or is shown as the replacement
sign. -/
theorem nextLossy_not_ascii {x : UInt8} (hx : ¬ x < 0x80) (a : Bytes) :
    0x80 ≤ (nextLossy x a).1.toNat := by
  have hn : 0x80 ≤ x.toNat := by
    rw [UInt8.lt_iff_toNat_lt] at hx
    exact Nat.le_of_not_lt hx
  have hreplacement : 0x80 ≤ replacement.toNat := by decide
  simp only [nextLossy]
  cases hl : lead? x with
  | none => exact hreplacement
  | some l =>
    simp only
    cases hf : follow l.more l.low l.high l.bits a with
    | mk found left =>
      cases found with
      | none => exact hreplacement
      | some n =>
        have hfound : (follow l.more l.low l.high l.bits a).1 = some n := by rw [hf]
        obtain ⟨hvalid, hle⟩ := isValidChar_of_follow hl hn hfound
        show 0x80 ≤ (Char.ofNat n).toNat
        rw [toNat_ofNat hvalid]
        exact hle

/-! ### The whole text -/

theorem decodeLossyOnto_eq : ∀ (b : Bytes) (shown : String),
    decodeLossyOnto shown b = shown ++ decodeLossy b := by
  intro b
  induction hn : b.length using Nat.strong_induction_on generalizing b with
  | _ n ih =>
    intro shown
    cases b with
    | nil => simp [decodeLossy, decodeLossyOnto]
    | cons x rest =>
      have hlt : (nextLossy x rest).2.length < n := by
        have := length_nextLossy x rest
        rw [← hn, List.length_cons]
        omega
      rw [decodeLossy, decodeLossyOnto, decodeLossyOnto, ih _ hlt _ rfl, ih _ hlt _ rfl]
      simp only [String.push_eq_append, String.empty_append, String.append_assoc]

theorem decodeLossy_nil : decodeLossy [] = "" := by rw [decodeLossy, decodeLossyOnto]

theorem decodeLossy_cons (x : UInt8) (rest : Bytes) :
    decodeLossy (x :: rest) =
      String.singleton (nextLossy x rest).1 ++ decodeLossy (nextLossy x rest).2 := by
  rw [decodeLossy, decodeLossyOnto, decodeLossyOnto_eq, String.push_eq_append,
    String.empty_append]

theorem decodeLossy_cons_of_ascii {x : UInt8} (hx : x < 0x80) (rest : Bytes) :
    decodeLossy (x :: rest) = String.singleton (Char.ofNat x.toNat) ++ decodeLossy rest := by
  rw [decodeLossy_cons, nextLossy_of_ascii hx]

/-- ASCII bytes are shown as the characters they are, whatever comes behind them. -/
theorem decodeLossy_ascii_append {b : Bytes} (hb : ∀ x ∈ b, x < 0x80) (rest : Bytes) :
    decodeLossy (b ++ rest) =
      String.ofList (b.map fun x => Char.ofNat x.toNat) ++ decodeLossy rest := by
  induction b with
  | nil => exact (String.empty_append).symm
  | cons x b ih =>
    rw [List.cons_append, decodeLossy_cons_of_ascii (hb x List.mem_cons_self),
      ih fun y hy => hb y (List.mem_cons_of_mem x hy), List.map_cons, String.ofList_cons,
      String.append_assoc]

theorem decodeLossy_of_ascii {b : Bytes} (hb : ∀ x ∈ b, x < 0x80) :
    decodeLossy b = String.ofList (b.map fun x => Char.ofNat x.toNat) := by
  have h := decodeLossy_ascii_append hb []
  rwa [List.append_nil, decodeLossy_nil, String.append_empty] at h

/-- **Bytes that begin with an ASCII byte are shown by themselves.** -/
theorem decodeLossy_append : ∀ (a : Bytes) {b : Bytes}, StartsAscii b →
    decodeLossy (a ++ b) = decodeLossy a ++ decodeLossy b := by
  intro a
  induction hn : a.length using Nat.strong_induction_on generalizing a with
  | _ n ih =>
    intro b hb
    cases a with
    | nil => rw [List.nil_append, decodeLossy_nil, String.empty_append]
    | cons x a =>
      have hlt : (nextLossy x a).2.length < n := by
        have := length_nextLossy x a
        rw [← hn, List.length_cons]
        omega
      rw [List.cons_append, decodeLossy_cons, nextLossy_append x a hb, ih _ hlt _ rfl hb,
        decodeLossy_cons x a, String.append_assoc]

/-! ### Bytes of a text -/

theorem encodeUtf8_eq (s : String) : encodeUtf8 s = s.toList.flatMap String.utf8EncodeChar := by
  rw [encodeUtf8, ← String.utf8Encode_toList, List.utf8Encode]
  simp

/-- ASCII bytes are the bytes of the text they are. -/
theorem encodeUtf8_of_ascii {b : Bytes} (hb : ∀ x ∈ b, x < 0x80) :
    encodeUtf8 (String.ofList (b.map fun x => Char.ofNat x.toNat)) = b := by
  rw [encodeUtf8_eq, String.toList_ofList]
  induction b with
  | nil => rfl
  | cons x b ih =>
    have hx := toNat_ofNat_of_ascii (hb x List.mem_cons_self)
    have hlt : x.toNat < 0x80 := UInt8.lt_iff_toNat_lt.mp (hb x List.mem_cons_self)
    have hchar : String.utf8EncodeChar (Char.ofNat x.toNat) = [x] := by
      have hval : (Char.ofNat x.toNat).val.toNat = x.toNat := hx
      rw [String.utf8EncodeChar, hval, if_pos (Nat.le_of_lt_succ hlt), UInt8.ofNat_toNat]
    rw [List.map_cons, List.flatMap_cons, hchar, ih fun y hy => hb y (List.mem_cons_of_mem x hy),
      List.singleton_append]

theorem follow_zero (low high bits : Nat) (b : Bytes) :
    follow 0 low high bits b = (some bits, b) := by
  cases b <;> simp [follow]

theorem follow_succ {x : UInt8} {low high : Nat} (hlow : low ≤ x.toNat) (hhigh : x.toNat ≤ high)
    (more bits : Nat) (b : Bytes) : follow (more + 1) low high bits (x :: b) =
      follow more 0x80 0xBF (64 * bits + (x.toNat - 0x80)) b := by
  simp [follow, hlow, hhigh]

theorem nextLossy_of_follow {x : UInt8} {l : Lead} {n : Nat} {b c : Bytes}
    (hlead : lead? x = some l) (h : follow l.more l.low l.high l.bits b = (some n, c)) :
    nextLossy x b = (Char.ofNat n, c) := by
  simp [nextLossy, hlead, h]

theorem lead?_two {x : UInt8} (hlow : 0xC2 ≤ x.toNat) (hhigh : x.toNat < 0xE0) :
    lead? x = some ⟨1, 0x80, 0xBF, x.toNat - 0xC0⟩ := by
  simp only [lead?]
  rw [if_neg (by omega), if_neg (by omega), if_pos hhigh]

theorem lead?_three {x : UInt8} (hlow : 0xE0 ≤ x.toNat) (hhigh : x.toNat < 0xF0) :
    lead? x = some ⟨2, if x.toNat = 0xE0 then 0xA0 else 0x80,
      if x.toNat = 0xED then 0x9F else 0xBF, x.toNat - 0xE0⟩ := by
  simp only [lead?]
  rw [if_neg (by omega), if_neg (by omega), if_neg (by omega)]
  split_ifs <;> simp_all

theorem lead?_four {x : UInt8} (hlow : 0xF0 ≤ x.toNat) (hhigh : x.toNat ≤ 0xF4) :
    lead? x = some ⟨3, if x.toNat = 0xF0 then 0x90 else 0x80,
      if x.toNat = 0xF4 then 0x8F else 0xBF, x.toNat - 0xF0⟩ := by
  simp only [lead?]
  rw [if_neg (by omega), if_neg (by omega), if_neg (by omega), if_neg (by omega),
    if_neg (by omega), if_neg (by omega)]
  split_ifs <;> first | omega | simp_all

/-- The bytes of a character are read as that character. -/
theorem nextLossy_utf8EncodeChar (c : Char) :
    ∃ x more, String.utf8EncodeChar c = x :: more ∧ ∀ b, nextLossy x (more ++ b) = (c, b) := by
  have hbyte : ∀ {n : Nat}, n < 256 → (UInt8.ofNat n).toNat = n := fun h =>
    UInt8.toNat_ofNat_of_lt h
  obtain ⟨v, hv⟩ : ∃ v, v = c.val.toNat := ⟨_, rfl⟩
  have hvalid : v < 0xD800 ∨ 0xDFFF < v ∧ v < 0x110000 := hv ▸ c.valid
  have hchar : Char.ofNat v = c := hv ▸ Char.ofNat_toNat c
  simp only [String.utf8EncodeChar, ← hv]
  split_ifs with hone htwo hthree
  · refine ⟨_, _, rfl, fun b => ?_⟩
    have hx := hbyte (n := v) (by omega)
    have hascii : UInt8.ofNat v < 0x80 := by
      rw [UInt8.lt_iff_toNat_lt, hx]
      exact Nat.lt_succ_of_le hone
    rw [List.nil_append, nextLossy_of_ascii hascii, hx, hchar]
  · refine ⟨_, _, rfl, fun b => ?_⟩
    have hx := hbyte (n := v / 64 % 32 + 192) (by omega)
    have hy := hbyte (n := v % 64 + 128) (by omega)
    have hsum : 64 * (v / 64 % 32 + 192 - 0xC0) + (v % 64 + 128 - 0x80) = v := by omega
    rw [nextLossy_of_follow (n := v) (c := b) (lead?_two (by omega) (by omega)), hchar]
    simp only [hx, List.singleton_append]
    rw [follow_succ (by omega) (by omega), follow_zero, hy, hsum]
  · refine ⟨_, _, rfl, fun b => ?_⟩
    have hx := hbyte (n := v / 4096 % 16 + 224) (by omega)
    have hy := hbyte (n := v / 64 % 64 + 128) (by omega)
    have hz := hbyte (n := v % 64 + 128) (by omega)
    have hsum : 64 * (64 * (v / 4096 % 16 + 224 - 0xE0) + (v / 64 % 64 + 128 - 0x80)) +
        (v % 64 + 128 - 0x80) = v := by omega
    rw [nextLossy_of_follow (n := v) (c := b) (lead?_three (by omega) (by omega)), hchar]
    simp only [hx, List.cons_append, List.nil_append]
    -- The bounds of the second byte keep out overlong forms and surrogates.
    rw [follow_succ (by split_ifs <;> omega) (by split_ifs <;> omega),
      follow_succ (by omega) (by omega), follow_zero, hy, hz, hsum]
  · refine ⟨_, _, rfl, fun b => ?_⟩
    have hx := hbyte (n := v / 262144 % 8 + 240) (by omega)
    have hw := hbyte (n := v / 4096 % 64 + 128) (by omega)
    have hy := hbyte (n := v / 64 % 64 + 128) (by omega)
    have hz := hbyte (n := v % 64 + 128) (by omega)
    have hsum : 64 * (64 * (64 * (v / 262144 % 8 + 240 - 0xF0) + (v / 4096 % 64 + 128 - 0x80)) +
        (v / 64 % 64 + 128 - 0x80)) + (v % 64 + 128 - 0x80) = v := by omega
    rw [nextLossy_of_follow (n := v) (c := b) (lead?_four (by omega) (by omega)), hchar]
    simp only [hx, List.cons_append, List.nil_append]
    rw [follow_succ (by split_ifs <;> omega) (by split_ifs <;> omega),
      follow_succ (by omega) (by omega), follow_succ (by omega) (by omega), follow_zero, hw, hy, hz,
      hsum]

/-- **The bytes of a text are shown as the text they are.** -/
theorem decodeLossy_encodeUtf8 (s : String) : decodeLossy (encodeUtf8 s) = s := by
  have hchars : ∀ l : List Char,
      decodeLossy (l.flatMap String.utf8EncodeChar) = String.ofList l := by
    intro l
    induction l with
    | nil => rw [List.flatMap_nil, decodeLossy_nil, String.ofList_nil]
    | cons c l ih =>
      obtain ⟨x, more, hc, hnext⟩ := nextLossy_utf8EncodeChar c
      rw [List.flatMap_cons, hc, List.cons_append, decodeLossy_cons, hnext, ih,
        String.ofList_cons]
  rw [encodeUtf8_eq, hchars, String.ofList_toList]

end LedgerGateway.Text
