import LedgerGateway.Proofs.Asn1.Writing
import Mathlib.Data.List.Induction
import Mathlib.Tactic.Ring

/-!
# What is read by the strict rules is what is written

By the strict rules there is one way to write an element, and so one way to write a row of them:
bytes that are read as an element are the bytes that `write` gives for it, and those behind it
(`eq_write_of_reads`).  The same is true of the content of an integer that is not negative
(`natural?_eq_some_iff`): where a byte could be left out, or the first bit is set, nothing is read.
-/

namespace LedgerGateway

/-! ### Numbers in bytes -/

namespace Bytes

/-- Bytes are those of the number they write, as many as there are. -/
theorem bigEndian_toNat (b : Bytes) : bigEndian b.length (toNat b) = b := by
  induction b using List.reverseRecOn with
  | nil => rfl
  | append_singleton b x ih =>
    have hx : x.toNat < 256 := x.toNat_lt
    have hquotient : (256 * toNat b + x.toNat) / 256 = toNat b := by omega
    have hlast : UInt8.ofNat (256 * toNat b + x.toNat) = x := by
      rw [← UInt8.toNat_inj, UInt8.toNat_ofNat']
      omega
    rw [List.length_append, List.length_singleton, toNat_append_singleton, bigEndian, hquotient,
      hlast, ih]

theorem toNat_cons (x : UInt8) (b : Bytes) :
    toNat (x :: b) = x.toNat * 256 ^ b.length + toNat b := by
  induction b using List.reverseRecOn with
  | nil => simp [toNat]
  | append_singleton b y ih =>
    rw [← List.cons_append, toNat_append_singleton, toNat_append_singleton, ih, List.length_append,
      List.length_singleton, Nat.pow_succ]
    ring

theorem toNat_lt (b : Bytes) : toNat b < 256 ^ b.length := by
  rw [← bigEndian_toNat b, toNat_bigEndian, length_bigEndian]
  exact Nat.mod_lt _ (Nat.pow_pos (by decide))

end Bytes

namespace Asn1

variable {b c rest : Bytes} {n : Nat}

/-! ### Elements -/

theorem eq_writeLength_of_reads (h : Reads (readLength .strict b) n rest) :
    b = writeLength n ++ rest := by
  obtain ⟨hshorter, h⟩ := h
  cases b with
  | nil => cases h
  | cons x b =>
    rw [readLength] at h
    by_cases hx : x < 128
    · rw [if_pos hx] at h
      cases h
      have hlt : x.toNat < 128 := UInt8.lt_iff_toNat_lt.mp hx
      rw [writeLength, if_pos hlt, UInt8.ofNat_toNat]
      rfl
    · rw [if_neg hx] at h
      simp only at h
      split at h
      · cases h
      · rename_i hok
        simp only [Option.some.injEq, Reading.mk.injEq] at h
        obtain ⟨hn, hrest⟩ := h
        rw [not_or, not_or, Bool.not_eq_true', Bool.not_eq_false, hn] at hok
        obtain ⟨-, hlength, hallows⟩ := hok
        obtain ⟨hfour, hlong, hwidth⟩ :
            x.toNat - 128 ≤ 4 ∧ 128 ≤ n ∧ x.toNat - 128 = lengthBytes n := by
          simpa only [Form.allows, decide_eq_true_eq] using hallows
        have hdigits : (b.take (x.toNat - 128)).length = lengthBytes n := by
          rw [List.length_take, ← hwidth]
          omega
        have hbyte : UInt8.ofNat (128 + lengthBytes n) = x := by
          have hle : 128 ≤ x.toNat := by
            rw [UInt8.lt_iff_toNat_lt] at hx
            exact Nat.not_lt.mp hx
          rw [← hwidth, Nat.add_sub_cancel' hle, UInt8.ofNat_toNat]
        rw [writeLength, if_neg (Nat.not_lt.mpr hlong), hbyte, ← hdigits, ← hn,
          Bytes.bigEndian_toNat, ← hrest, List.cons_append, List.take_append_drop]

theorem eq_cons_of_readIdentifier {r : Reading (UInt8 × Nat) b}
    (h : readIdentifier .strict b = some r) :
    b = r.value.1 :: r.rest ∧ r.value.2 = r.value.1.toNat % 32 := by
  cases b with
  | nil => cases h
  | cons x b =>
    rw [readIdentifier] at h
    split at h
    · cases h
      exact ⟨rfl, rfl⟩
    · cases h

theorem eq_write_of_reads {e : Element} (h : Reads (read .strict b) e rest) :
    b = write e.identifier e.content ++ rest ∧ e.number = e.identifier.toNat % 32 := by
  obtain ⟨hshorter, h⟩ := h
  obtain ⟨identifier, hidentifier, h⟩ := Option.bind_eq_some_iff.mp h
  obtain ⟨length, hlength, h⟩ := Option.bind_eq_some_iff.mp h
  split at h
  · rename_i hfits
    simp only [Option.pure_def, Option.some.injEq, Reading.mk.injEq] at h
    obtain ⟨rfl, rfl⟩ := h
    have hfirst := eq_cons_of_readIdentifier hidentifier
    have hrest := eq_writeLength_of_reads ⟨length.shorter, hlength⟩
    have hcontent : (length.rest.take length.value).length = length.value := by
      rw [List.length_take]
      omega
    refine ⟨?_, hfirst.2⟩
    calc b = identifier.value.1 :: identifier.rest := hfirst.1
      _ = identifier.value.1 :: (writeLength length.value ++ length.rest) := by rw [← hrest]
      _ = write identifier.value.1 (length.rest.take length.value) ++
          length.rest.drop length.value := by
        rw [write, hcontent, List.cons_append, List.cons_append, List.append_assoc,
          List.take_append_drop]
  · cases h

/-- **A row that is read is the row that is written.** -/
theorem eq_flatMap_write_of_readAll : ∀ {es : List Element} {b : Bytes},
    readAll .strict b = some es → b = es.flatMap fun e => write e.identifier e.content := by
  intro es
  induction es with
  | nil =>
    intro b h
    rw [readAll] at h
    split at h
    · rename_i hempty
      exact List.isEmpty_iff.mp hempty
    · obtain ⟨first, _, h⟩ := Option.bind_eq_some_iff.mp h
      obtain ⟨others, _, h⟩ := Option.bind_eq_some_iff.mp h
      cases h
  | cons e es ih =>
    intro b h
    rw [readAll] at h
    split at h
    · cases h
    · obtain ⟨first, hfirst, h⟩ := Option.bind_eq_some_iff.mp h
      obtain ⟨others, hothers, h⟩ := Option.bind_eq_some_iff.mp h
      cases h
      rw [List.flatMap_cons, ← ih hothers]
      exact (eq_write_of_reads ⟨first.shorter, hfirst⟩).1

theorem eq_write_of_readWhole {identifier : UInt8}
    (h : readWhole .strict identifier b = some c) : b = write identifier c := by
  obtain ⟨e, he, h⟩ := Option.bind_eq_some_iff.mp h
  split at h
  · rename_i hwhole
    cases h
    obtain ⟨rfl, hrest⟩ := hwhole
    have hbytes := (eq_write_of_reads ⟨e.shorter, he⟩).1
    rwa [hrest, List.append_nil] at hbytes
  · cases h

/-! ### Integers -/

/-- The width of the content is the one that the bounds of the number ask for. -/
theorem naturalWidth_eq {width : Nat} (hlt : n < 128 * 256 ^ width)
    (hle : width ≠ 0 → 128 * 256 ^ (width - 1) ≤ n) : naturalWidth n = width + 1 := by
  have hpow : ∀ k, 128 * 256 ^ k = 2 ^ (7 + 8 * k) := fun k => by rw [Nat.pow_add, Nat.pow_mul]
  have hupper : Nat.log2 n < 7 + 8 * width := by
    by_cases hzero : n = 0
    · rw [hzero, Nat.log2_zero]
      omega
    · exact (Nat.log2_lt hzero).mpr (hpow width ▸ hlt)
  cases width with
  | zero =>
    unfold naturalWidth
    split <;> omega
  | succ width =>
    have hbound : 2 ^ (7 + 8 * width) ≤ n := hpow width ▸ hle (Nat.succ_ne_zero width)
    have hpos : n ≠ 0 := Nat.pos_iff_ne_zero.mp (Nat.lt_of_lt_of_le (Nat.pow_pos (by decide)) hbound)
    have hlower : 7 + 8 * width ≤ Nat.log2 n := (Nat.le_log2 hpos).mpr hbound
    unfold naturalWidth
    split <;> omega

/-- A first byte that could not be left out is a lower bound. -/
theorem le_toNat_of_natural? {x : UInt8} (h : x = 0 → rest.head?.all (128 ≤ ·) = true)
    (hrest : rest ≠ []) : 128 * 256 ^ (rest.length - 1) ≤ Bytes.toNat (x :: rest) := by
  obtain ⟨y, rest, rfl⟩ := List.exists_cons_of_ne_nil hrest
  rw [Bytes.toNat_cons, Bytes.toNat_cons, List.length_cons, Nat.add_sub_cancel, Nat.pow_succ]
  by_cases hx : x = 0
  · have hy : 128 ≤ y.toNat := by
      have hall := h hx
      simpa [UInt8.le_iff_toNat_le] using hall
    have hle := Nat.mul_le_mul_right (256 ^ rest.length) hy
    omega
  · have hpos : 1 ≤ x.toNat := Nat.pos_of_ne_zero fun hzero => hx (UInt8.toNat_inj.mp hzero)
    have hle := Nat.mul_le_mul_right (256 ^ rest.length * 256) hpos
    omega

/-- **The content that is written is the only one that is read.** -/
theorem natural?_eq_some_iff : natural? c = some n ↔ c = naturalContent n := by
  constructor
  · intro h
    cases c with
    | nil => cases h
    | cons x rest =>
      rw [natural?] at h
      split at h
      · rename_i hminimal
        obtain ⟨hx, hhead⟩ := hminimal
        obtain rfl := Option.some.inj h
        have hlt : Bytes.toNat (x :: rest) < 128 * 256 ^ rest.length := by
          have hfirst : x.toNat + 1 ≤ 128 := UInt8.lt_iff_toNat_lt.mp hx
          have hrest := Bytes.toNat_lt rest
          have hle := Nat.mul_le_mul_right (256 ^ rest.length) hfirst
          rw [Nat.succ_mul] at hle
          rw [Bytes.toNat_cons]
          omega
        have hwidth : naturalWidth (Bytes.toNat (x :: rest)) = (x :: rest).length :=
          naturalWidth_eq hlt fun hne => le_toNat_of_natural? hhead fun hnil => hne (by rw [hnil]; rfl)
        rw [naturalContent_eq, hwidth, Bytes.bigEndian_toNat]
      · cases h
  · rintro rfl
    exact natural?_naturalContent n

theorem write_of_natural? {e : Element} (h : e.natural? = some n) :
    write e.identifier e.content = writeNatural n := by
  rw [Element.natural?] at h
  split at h
  · rename_i hidentifier
    rw [hidentifier, natural?_eq_some_iff.mp h, writeNatural]
  · cases h

end Asn1

end LedgerGateway
