import LedgerGateway.Wire.Primitive
import Mathlib.Algebra.Ring.Nat
import Mathlib.Data.Nat.Log

/-!
# Readings and numbers of variable width

A reader takes something off the front of bytes and leaves the rest (`Reads`).  What a composite
reader takes is what its parts take (`reads_bind_iff`, `reads_map_iff`).

A number of variable width has one byte for every seven bits (`length_writeVarint`).  A length is
such a number, of 64 bits, and so is the size of everything that is in memory.  This is the only
bound that there is on what can be read back (`sizeLimit`).
-/

namespace LedgerGateway.Wire

variable {ε ε' α β γ : Type} {b : Bytes}

/-! ### Readings -/

/-- A reading succeeds with this value and leaves these bytes. -/
def Reads (r : Except ε (Reading α b)) (v : α) (rest : Bytes) : Prop :=
  ∃ h, r = .ok ⟨v, rest, h⟩

namespace Reads

variable {r : Except ε (Reading α b)} {v : α} {rest : Bytes}

theorem shorter (h : Reads r v rest) : rest.length < b.length := h.1

theorem bind_eq (h : Reads r v rest) (f : Reading α b → Except ε γ) :
    (r >>= f) = f ⟨v, rest, h.shorter⟩ := by
  obtain ⟨hlt, rfl⟩ := h
  rfl

theorem map (h : Reads r v rest) (f : α → β) :
    Reads (return (← r).map f : Except ε (Reading β b)) (f v) rest := by
  obtain ⟨hlt, rfl⟩ := h
  exact ⟨hlt, rfl⟩

theorem mapError (h : Reads r v rest) (f : ε → ε') : Reads (r.mapError f) v rest := by
  obtain ⟨hlt, rfl⟩ := h
  exact ⟨hlt, rfl⟩

theorem unique {v' : α} {rest' : Bytes} (h : Reads r v rest) (h' : Reads r v' rest') :
    v = v' ∧ rest = rest' := by
  obtain ⟨_, hr⟩ := h
  obtain ⟨_, hr'⟩ := h'
  cases hr.symm.trans hr'
  exact ⟨rfl, rfl⟩

end Reads

theorem bind_eq_ok_iff {r : Except ε α} {f : α → Except ε β} {v : β} :
    r >>= f = .ok v ↔ ∃ u, r = .ok u ∧ f u = .ok v := by
  cases r with
  | error e =>
    constructor
    · nofun
    · rintro ⟨_, h, _⟩
      cases h
  | ok u =>
    constructor
    · intro h
      exact ⟨u, rfl, h⟩
    · rintro ⟨_, h, hf⟩
      cases h
      exact hf

section Iff

variable {v : β} {rest : Bytes}

theorem reads_ok_iff {r : Reading β b} :
    Reads (.ok r : Except ε (Reading β b)) v rest ↔ v = r.value ∧ rest = r.rest := by
  constructor
  · rintro ⟨_, h⟩
    cases h
    exact ⟨rfl, rfl⟩
  · rintro ⟨rfl, rfl⟩
    exact ⟨r.shorter, rfl⟩

theorem not_reads_error {e : ε} : ¬ Reads (.error e : Except ε (Reading β b)) v rest := by
  rintro ⟨_, h⟩
  cases h

theorem reads_bind_iff {r : Except ε γ} {f : γ → Except ε (Reading β b)} :
    Reads (r >>= f) v rest ↔ ∃ u, r = .ok u ∧ Reads (f u) v rest := by
  constructor
  · rintro ⟨hlt, h⟩
    obtain ⟨u, hr, hf⟩ := bind_eq_ok_iff.1 h
    exact ⟨u, hr, hlt, hf⟩
  · rintro ⟨u, hr, hlt, hf⟩
    exact ⟨hlt, bind_eq_ok_iff.2 ⟨u, hr, hf⟩⟩

theorem reads_map_iff {r : Except ε (Reading α b)} {f : α → β} :
    Reads (return (← r).map f : Except ε (Reading β b)) v rest ↔
      ∃ u, Reads r u rest ∧ v = f u := by
  constructor
  · intro h
    obtain ⟨⟨u, rest', hlt⟩, rfl, hf⟩ := reads_bind_iff.1 h
    obtain ⟨rfl, rfl⟩ := reads_ok_iff.1 hf
    exact ⟨u, ⟨hlt, rfl⟩, rfl⟩
  · rintro ⟨u, h, rfl⟩
    exact h.map f

theorem reads_mapError_iff {r : Except ε (Reading β b)} {f : ε → ε'} :
    Reads (r.mapError f) v rest ↔ Reads r v rest := by
  constructor
  · rintro ⟨hlt, h⟩
    cases r with
    | error e => cases h
    | ok u => cases h; exact ⟨hlt, rfl⟩
  · intro h
    exact h.mapError f

end Iff

/-! ### Numbers of variable width -/

/-- The first number that has no 64 bits.  Nothing in memory has so many bytes. -/
def sizeLimit : Nat := 18446744073709551616

theorem writeVarint_of_lt {n : Nat} (h : n < 128) : writeVarint n = [UInt8.ofNat n] := by
  rw [writeVarint, if_pos h]

theorem writeVarint_of_le {n : Nat} (h : 128 ≤ n) :
    writeVarint n = UInt8.ofNat (n % 128 + 128) :: writeVarint (n / 128) := by
  rw [writeVarint, if_neg (by omega)]

theorem toNat_ofNat {n : Nat} (h : n < 256) : (UInt8.ofNat n).toNat = n := by
  rw [UInt8.toNat_ofNat']
  exact Nat.mod_eq_of_lt h

theorem log2_div_128 {n : Nat} (h : 128 ≤ n) : Nat.log2 n = Nat.log2 (n / 128) + 7 := by
  have hdiv : n / 128 = n / 2 ^ 7 := rfl
  rw [Nat.log2_eq_log_two, Nat.log2_eq_log_two, hdiv, Nat.log_div_base_pow]
  have hlog : 7 ≤ Nat.log 2 n := Nat.le_log_of_pow_le (by omega) h
  omega

theorem length_writeVarint : ∀ n : Nat, (writeVarint n).length = lengthVarint n := by
  intro n
  induction n using Nat.strong_induction_on with
  | _ n ih =>
    by_cases h : n < 128
    · have hlog : Nat.log2 n < 7 := by
        by_cases hzero : n = 0
        · rw [hzero]; decide
        · exact (Nat.log2_lt hzero).mpr h
      rw [writeVarint_of_lt h, lengthVarint, Nat.div_eq_of_lt hlog]
      rfl
    · have hle : 128 ≤ n := by omega
      rw [writeVarint_of_le hle, List.length_cons, ih (n / 128) (by omega), lengthVarint,
        lengthVarint, log2_div_128 hle]
      omega

/-! ### Keys -/

/-- A key that can be written: it names a field, and it has 32 bits. -/
def Key.IsValid (k : Key) : Prop := 1 ≤ k.number ∧ k.number < 536870912

instance (k : Key) : Decidable k.IsValid := inferInstanceAs (Decidable (_ ∧ _))

end LedgerGateway.Wire
