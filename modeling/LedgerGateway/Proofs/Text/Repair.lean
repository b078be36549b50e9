import LedgerGateway.Proofs.Text.Lossy

/-!
# The bytes of the text that is shown

Bytes that are no text are shown as one, and that text has bytes again.  They differ from the first
ones in nothing that is ASCII: each ASCII byte stands where it stood, and where bytes outside ASCII
stood there are some again, though perhaps others (`Resembles`, `resembles_repaired`).

The reason is that a byte outside ASCII takes only such bytes with it (`exists_nextLossy`) and is
shown as a character outside ASCII (`nextLossy_not_ascii`), all bytes of which are outside ASCII
(`isHigh_utf8EncodeChar`).
-/

namespace LedgerGateway.Text

/-- Bytes agree in all that is ASCII, and in where something else stands. -/
inductive Resembles : Bytes → Bytes → Prop
  | nil : Resembles [] []
  | ascii {x : UInt8} {b c : Bytes} : x < 0x80 → Resembles b c → Resembles (x :: b) (x :: c)
  | high {s t b c : Bytes} : s ≠ [] → IsHigh s → t ≠ [] → IsHigh t → Resembles b c →
      Resembles (s ++ b) (t ++ c)

theorem Resembles.of_nil {c : Bytes} (h : Resembles [] c) : c = [] := by
  generalize hb : ([] : Bytes) = b at h
  cases h with
  | nil => rfl
  | ascii _ _ => cases hb
  | high hs _ _ _ _ => exact absurd (List.append_eq_nil_iff.mp hb.symm).1 hs

theorem Resembles.ne_nil {b c : Bytes} (h : Resembles b c) (hb : b ≠ []) : c ≠ [] := by
  cases h with
  | nil => exact hb
  | ascii _ _ => exact List.cons_ne_nil _ _
  | high _ _ ht _ _ => exact fun hc => ht (List.append_eq_nil_iff.mp hc).1

theorem Resembles.of_ascii_cons {x : UInt8} {b c : Bytes} (hx : x < 0x80)
    (h : Resembles (x :: b) c) : ∃ d, c = x :: d ∧ Resembles b d := by
  generalize hb : x :: b = b' at h
  cases h with
  | nil => cases hb
  | ascii _ h =>
    cases hb
    exact ⟨_, rfl, h⟩
  | @high s t b' c' hs hhigh _ _ _ =>
    obtain ⟨y, s, rfl⟩ := List.exists_cons_of_ne_nil hs
    cases hb
    exact absurd hx (hhigh x List.mem_cons_self)

/-- What resembles bytes that begin outside ASCII begins outside ASCII, and the rest of it is the
rest of those, too. -/
theorem Resembles.of_high_cons {x : UInt8} {b c : Bytes} (hx : ¬ x < 0x80)
    (h : Resembles (x :: b) c) : ∃ t d, c = t ++ d ∧ IsHigh t ∧ (Resembles b c ∨ Resembles b d) := by
  generalize hb : x :: b = b' at h
  cases h with
  | nil => cases hb
  | ascii hy _ =>
    cases hb
    exact absurd hy hx
  | @high s t b' c' hs hhigh ht hhigh' h =>
    obtain ⟨y, s, rfl⟩ := List.exists_cons_of_ne_nil hs
    rw [List.cons_append] at hb
    obtain ⟨rfl, rfl⟩ := List.cons.inj hb
    refine ⟨t, c', rfl, hhigh', ?_⟩
    by_cases hnil : s = []
    · subst hnil
      exact .inr h
    · exact .inl (.high hnil (List.forall_mem_cons.mp hhigh).2 ht hhigh' h)

theorem encodeUtf8_append (s t : String) : encodeUtf8 (s ++ t) = encodeUtf8 s ++ encodeUtf8 t := by
  rw [encodeUtf8_eq, encodeUtf8_eq, encodeUtf8_eq, String.toList_append, List.flatMap_append]

theorem encodeUtf8_singleton (c : Char) :
    encodeUtf8 (String.singleton c) = String.utf8EncodeChar c := by
  rw [encodeUtf8_eq, String.toList_singleton, List.flatMap_singleton]

theorem utf8EncodeChar_ne_nil (c : Char) : String.utf8EncodeChar c ≠ [] := by
  obtain ⟨x, more, hc, -⟩ := nextLossy_utf8EncodeChar c
  rw [hc]
  exact List.cons_ne_nil x more

/-- All bytes of a character outside ASCII are outside ASCII. -/
theorem isHigh_utf8EncodeChar {c : Char} (hc : 0x80 ≤ c.toNat) : IsHigh (String.utf8EncodeChar c) := by
  have hhigh : ∀ {n : Nat}, n < 256 → 0x80 ≤ n → ¬ UInt8.ofNat n < 0x80 := by
    intro n hn hle
    have hbyte : (UInt8.ofNat n).toNat = n := UInt8.toNat_ofNat_of_lt hn
    rw [UInt8.lt_iff_toNat_lt, hbyte]
    exact Nat.not_lt.mpr hle
  obtain ⟨v, hv⟩ : ∃ v, v = c.val.toNat := ⟨_, rfl⟩
  have hle : 0x80 ≤ v := hv ▸ hc
  intro x hx
  simp only [String.utf8EncodeChar, ← hv] at hx
  split_ifs at hx with hone htwo hthree
  · omega
  · simp only [List.mem_cons, List.not_mem_nil, or_false] at hx
    rcases hx with rfl | rfl <;> exact hhigh (by omega) (by omega)
  · simp only [List.mem_cons, List.not_mem_nil, or_false] at hx
    rcases hx with rfl | rfl | rfl <;> exact hhigh (by omega) (by omega)
  · simp only [List.mem_cons, List.not_mem_nil, or_false] at hx
    rcases hx with rfl | rfl | rfl | rfl <;> exact hhigh (by omega) (by omega)

/-- **Nothing that is ASCII is lost, made or moved when bytes are shown as a text.** -/
theorem resembles_repaired : ∀ b : Bytes, Resembles b (encodeUtf8 (decodeLossy b)) := by
  intro b
  induction hn : b.length using Nat.strong_induction_on generalizing b with
  | _ n ih =>
    subst hn
    cases b with
    | nil =>
      rw [decodeLossy_nil]
      exact .nil
    | cons x b =>
      have hlt : (nextLossy x b).2.length < (x :: b).length :=
        Nat.lt_succ_of_le (length_nextLossy x b)
      by_cases hx : x < 0x80
      · have hchar : encodeUtf8 (String.singleton (Char.ofNat x.toNat)) = [x] :=
          encodeUtf8_of_ascii (b := [x]) (List.forall_mem_singleton.mpr hx)
        rw [decodeLossy_cons_of_ascii hx, encodeUtf8_append, hchar]
        exact .ascii hx (ih _ (Nat.lt_succ_self _) b rfl)
      · obtain ⟨taken, hb, htaken⟩ := exists_nextLossy x b
        have h : Resembles ((x :: taken) ++ (nextLossy x b).2) _ :=
          .high (List.cons_ne_nil _ _) (List.forall_mem_cons.mpr ⟨hx, htaken⟩)
            (utf8EncodeChar_ne_nil _) (isHigh_utf8EncodeChar (nextLossy_not_ascii hx b))
            (ih _ hlt _ rfl)
        rw [List.cons_append, ← hb] at h
        rwa [decodeLossy_cons, encodeUtf8_append, encodeUtf8_singleton]

end LedgerGateway.Text
