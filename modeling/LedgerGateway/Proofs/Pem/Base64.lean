import LedgerGateway.Pem.Base64
import Mathlib.Data.List.Basic

/-!
# Base64 is read back

The digits of bytes are read as those bytes, with either habit of padding (`decodeRows_encode`,
`decodePadded_encode`).  Three bytes are four digits, and the last group stands for one byte or two
where one or two are left; so all three statements follow the recursion of `encode`.

What is written are digits and padding only, so that whatever holds of those holds of all that is
written (`forall_mem_encode`).
-/

namespace LedgerGateway.Pem.Base64

/-! ### Digits -/

theorem digitValue?_digit : ∀ v < 64, digitValue? (digit v) = some v := by
  decide

theorem digit_ne_pad : ∀ v < 64, digit v ≠ pad := by
  decide

/-- What is true of digits and of padding is true of all that is written. -/
theorem forall_mem_encode {P : UInt8 → Prop} (hdigit : ∀ v < 64, P (digit v)) (hpad : P pad)
    (b : Bytes) : ∀ c ∈ encode b, P c := by
  fun_induction encode b with
  | case1 => exact List.forall_mem_nil P
  | case2 a x =>
    have hx : x < 256 := a.toNat_lt
    simp only [List.forall_mem_cons, List.not_mem_nil, false_imp_iff, implies_true, and_true]
    exact ⟨hdigit _ (by omega), hdigit _ (by omega), hpad, hpad⟩
  | case3 a b x y =>
    have hx : x < 256 := a.toNat_lt
    have hy : y < 256 := b.toNat_lt
    simp only [List.forall_mem_cons, List.not_mem_nil, false_imp_iff, implies_true, and_true]
    exact ⟨hdigit _ (by omega), hdigit _ (by omega), hdigit _ (by omega), hpad⟩
  | case4 a b c rest x y z ih =>
    have hx : x < 256 := a.toNat_lt
    have hy : y < 256 := b.toNat_lt
    have hz : z < 256 := c.toNat_lt
    simp only [List.forall_mem_cons]
    exact ⟨hdigit _ (by omega), hdigit _ (by omega), hdigit _ (by omega), hdigit _ (by omega), ih⟩

theorem encode_ne_nil {b : Bytes} (hb : b ≠ []) : encode b ≠ [] := by
  fun_cases encode b with
  | case1 => exact absurd rfl hb
  | case2 => exact List.cons_ne_nil _ _
  | case3 => exact List.cons_ne_nil _ _
  | case4 => exact List.cons_ne_nil _ _

/-! ### Groups -/

theorem decodeTwo_digits {a b : Nat} (ha : a < 64) (hb : b < 64) (spare : Spare)
    (hspare : b % 16 = 0) :
    decodeTwo spare (digit a) (digit b) = some [UInt8.ofNat (4 * a + b / 16)] := by
  have hallows : spare.allows (b % 16) = true := by cases spare <;> simp [Spare.allows, hspare]
  simp [decodeTwo, digitValue?_digit, ha, hb, hallows]

theorem decodeThree_digits {a b c : Nat} (ha : a < 64) (hb : b < 64) (hc : c < 64) (spare : Spare)
    (hspare : c % 4 = 0) :
    decodeThree spare (digit a) (digit b) (digit c) =
      some [UInt8.ofNat (4 * a + b / 16), UInt8.ofNat (16 * (b % 16) + c / 4)] := by
  have hallows : spare.allows (c % 4) = true := by cases spare <;> simp [Spare.allows, hspare]
  simp [decodeThree, digitValue?_digit, ha, hb, hc, hallows]

theorem decodeFour_digits {a b c d : Nat} (ha : a < 64) (hb : b < 64) (hc : c < 64) (hd : d < 64) :
    decodeFour (digit a) (digit b) (digit c) (digit d) =
      some [UInt8.ofNat (4 * a + b / 16), UInt8.ofNat (16 * (b % 16) + c / 4),
        UInt8.ofNat (64 * (c % 4) + d)] := by
  simp [decodeFour, digitValue?_digit, ha, hb, hc, hd]

theorem decodeRows_group (a b c d : UInt8) :
    decodeRows [a, b, c, d] = decodeGroup .zero a b c d := by
  rw [decodeRows, decodeRows]
  cases decodeGroup .zero a b c d <;> simp

/-- A group without padding is four digits, wherever it stands. -/
theorem decodePadded_cons {a b c d : UInt8} (hd : d ≠ pad) (rest : Bytes) :
    decodePadded (a :: b :: c :: d :: rest) =
      (decodeFour a b c d).bind fun first => (decodePadded rest).map (first ++ ·) := by
  cases rest with
  | nil =>
    rw [decodePadded, decodePadded, decodeGroup, if_neg hd]
    cases decodeFour a b c d <;> simp
  | cons e rest =>
    rw [decodePadded]
    · cases decodeFour a b c d <;> cases decodePadded (e :: rest) <;> rfl
    · rintro ⟨⟩

/-! ### Whole texts -/

section

variable (a b c : UInt8)

theorem decodeGroup_one :
    decodeGroup .zero (digit (a.toNat / 4)) (digit (16 * (a.toNat % 4))) pad pad = some [a] := by
  have ha := a.toNat_lt
  have hfirst : 4 * (a.toNat / 4) + 16 * (a.toNat % 4) / 16 = a.toNat := by omega
  rw [decodeGroup, if_pos rfl, if_pos rfl, decodeTwo_digits (by omega) (by omega) _ (by omega),
    hfirst, UInt8.ofNat_toNat]

theorem decodeGroup_two :
    decodeGroup .zero (digit (a.toNat / 4)) (digit (16 * (a.toNat % 4) + b.toNat / 16))
      (digit (4 * (b.toNat % 16))) pad = some [a, b] := by
  have ha := a.toNat_lt
  have hb := b.toNat_lt
  have hfirst : 4 * (a.toNat / 4) + (16 * (a.toNat % 4) + b.toNat / 16) / 16 = a.toNat := by omega
  have hsecond : 16 * ((16 * (a.toNat % 4) + b.toNat / 16) % 16) + 4 * (b.toNat % 16) / 4 =
      b.toNat := by omega
  rw [decodeGroup, if_pos rfl, if_neg (digit_ne_pad _ (by omega)),
    decodeThree_digits (by omega) (by omega) (by omega) _ (by omega), hfirst, hsecond,
    UInt8.ofNat_toNat, UInt8.ofNat_toNat]

theorem decodeFour_three :
    decodeFour (digit (a.toNat / 4)) (digit (16 * (a.toNat % 4) + b.toNat / 16))
      (digit (4 * (b.toNat % 16) + c.toNat / 64)) (digit (c.toNat % 64)) = some [a, b, c] := by
  have ha := a.toNat_lt
  have hb := b.toNat_lt
  have hc := c.toNat_lt
  have hfirst : 4 * (a.toNat / 4) + (16 * (a.toNat % 4) + b.toNat / 16) / 16 = a.toNat := by omega
  have hsecond : 16 * ((16 * (a.toNat % 4) + b.toNat / 16) % 16) +
      (4 * (b.toNat % 16) + c.toNat / 64) / 4 = b.toNat := by omega
  have hthird : 64 * ((4 * (b.toNat % 16) + c.toNat / 64) % 4) + c.toNat % 64 = c.toNat := by omega
  rw [decodeFour_digits (by omega) (by omega) (by omega) (by omega), hfirst, hsecond, hthird,
    UInt8.ofNat_toNat, UInt8.ofNat_toNat, UInt8.ofNat_toNat]

end

/-- **What is written is read**, where every group may be padded. -/
theorem decodeRows_encode (b : Bytes) : decodeRows (encode b) = some b := by
  fun_induction encode b with
  | case1 => rfl
  | case2 a => exact (decodeRows_group _ _ _ _).trans (decodeGroup_one a)
  | case3 a b => exact (decodeRows_group _ _ _ _).trans (decodeGroup_two a b)
  | case4 a b c rest _ _ z ih =>
    have hz : digit (z % 64) ≠ pad := digit_ne_pad _ (Nat.mod_lt _ (by decide))
    rw [decodeRows, decodeGroup, if_neg hz, decodeFour_three, ih]
    rfl

/-- **What is written is read**, where the last group may be padded. -/
theorem decodePadded_encode (b : Bytes) : decodePadded (encode b) = some b := by
  fun_induction encode b with
  | case1 => rfl
  | case2 a => exact decodeGroup_one a
  | case3 a b => exact decodeGroup_two a b
  | case4 a b c rest _ _ z ih =>
    have hz : digit (z % 64) ≠ pad := digit_ne_pad _ (Nat.mod_lt _ (by decide))
    rw [decodePadded_cons hz, decodeFour_three, ih]
    rfl

/-! ### What is read -/

section

variable {a b c d : UInt8} {text content : Bytes}

/-- A byte that can stand in a text that is read. -/
def IsDigitOrPad (x : UInt8) : Prop := x = pad ∨ (digitValue? x).isSome

theorem isDigitOrPad_of_decodeTwo {spare : Spare} (h : decodeTwo spare a b = some content) :
    IsDigitOrPad a ∧ IsDigitOrPad b := by
  obtain ⟨v, hv, h⟩ := Option.bind_eq_some_iff.mp h
  obtain ⟨w, hw, -⟩ := Option.bind_eq_some_iff.mp h
  exact ⟨.inr (Option.isSome_of_eq_some hv), .inr (Option.isSome_of_eq_some hw)⟩

theorem isDigitOrPad_of_decodeThree {spare : Spare} (h : decodeThree spare a b c = some content) :
    IsDigitOrPad a ∧ IsDigitOrPad b ∧ IsDigitOrPad c := by
  obtain ⟨v, hv, h⟩ := Option.bind_eq_some_iff.mp h
  obtain ⟨w, hw, h⟩ := Option.bind_eq_some_iff.mp h
  obtain ⟨u, hu, -⟩ := Option.bind_eq_some_iff.mp h
  exact ⟨.inr (Option.isSome_of_eq_some hv), .inr (Option.isSome_of_eq_some hw),
    .inr (Option.isSome_of_eq_some hu)⟩

theorem isDigitOrPad_of_decodeFour (h : decodeFour a b c d = some content) :
    ∀ x ∈ [a, b, c, d], IsDigitOrPad x := by
  obtain ⟨v, hv, h⟩ := Option.bind_eq_some_iff.mp h
  obtain ⟨w, hw, h⟩ := Option.bind_eq_some_iff.mp h
  obtain ⟨u, hu, h⟩ := Option.bind_eq_some_iff.mp h
  obtain ⟨t, ht, -⟩ := Option.bind_eq_some_iff.mp h
  simp [IsDigitOrPad, hv, hw, hu, ht]

theorem isDigitOrPad_of_decodeGroup {spare : Spare} (h : decodeGroup spare a b c d = some content) :
    ∀ x ∈ [a, b, c, d], IsDigitOrPad x := by
  have hpad : IsDigitOrPad pad := .inl rfl
  rw [decodeGroup] at h
  split at h
  · rename_i hd
    split at h
    · rename_i hc
      obtain ⟨ha, hb⟩ := isDigitOrPad_of_decodeTwo h
      simp [ha, hb, hc, hd, hpad]
    · obtain ⟨ha, hb, hc⟩ := isDigitOrPad_of_decodeThree h
      simp [ha, hb, hc, hd, hpad]
  · exact isDigitOrPad_of_decodeFour h

/-- Nothing but digits and padding is read. -/
theorem isDigitOrPad_of_decodePadded (h : decodePadded text = some content) :
    ∀ x ∈ text, IsDigitOrPad x := by
  fun_induction decodePadded text generalizing content with
  | case1 => simp
  | case2 a b c d => exact isDigitOrPad_of_decodeGroup h
  | case3 a b c d rest _ ih =>
    obtain ⟨first, hfirst, h⟩ := Option.bind_eq_some_iff.mp h
    obtain ⟨others, hothers, -⟩ := Option.bind_eq_some_iff.mp h
    intro x hx
    rcases List.mem_append.mp (show x ∈ [a, b, c, d] ++ rest from hx) with hfour | hrest
    · exact isDigitOrPad_of_decodeFour hfirst x hfour
    · exact ih hothers x hrest
  | case4 => cases h

end

end LedgerGateway.Pem.Base64
