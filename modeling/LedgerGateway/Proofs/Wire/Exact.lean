import LedgerGateway.Proofs.Wire.Grammar
import LedgerGateway.Wire.Decoding

/-!
# Readers take what the grammar says

A reader takes exactly a language if it succeeds on just those bytes that begin with a word of the
language, takes that word and gives what the word stands for (`TakesExactly`).  So it takes the same
whatever stands behind.  This holds of the readers of numbers, byte strings, keys and scalars, and
of `skip`, which passes over values of no declared field.
-/

namespace LedgerGateway.Wire

variable {ε α β : Type}

/-- The reader takes the words of a language off the front of bytes, and nothing else. -/
def TakesExactly (read : (b : Bytes) → Except ε (Reading α b)) (Word : Bytes → α → Prop) : Prop :=
  ∀ (b : Bytes) (v : α) (rest : Bytes), Reads (read b) v rest ↔ ∃ w, b = w ++ rest ∧ Word w v

namespace TakesExactly

variable {read : (b : Bytes) → Except ε (Reading α b)} {Word : Bytes → α → Prop}

theorem reads (h : TakesExactly read Word) {w : Bytes} {v : α} (hword : Word w v) (rest : Bytes) :
    Reads (read (w ++ rest)) v rest :=
  (h _ _ _).2 ⟨w, rfl, hword⟩

theorem exists_word (h : TakesExactly read Word) {b : Bytes} {v : α} {rest : Bytes}
    (hread : Reads (read b) v rest) : ∃ w, b = w ++ rest ∧ Word w v :=
  (h _ _ _).1 hread

theorem map (h : TakesExactly read Word) (f : α → β) :
    TakesExactly (fun b => return (← read b).map f) fun w v => ∃ u, Word w u ∧ v = f u := by
  intro b v rest
  rw [reads_map_iff]
  constructor
  · rintro ⟨u, hread, rfl⟩
    obtain ⟨w, rfl, hword⟩ := h.exists_word hread
    exact ⟨w, rfl, u, hword, rfl⟩
  · rintro ⟨w, rfl, u, hword, rfl⟩
    exact ⟨u, h.reads hword rest, rfl⟩

end TakesExactly

/-! ### Numbers of variable width -/

theorem IsDigits.ne_nil {w : Bytes} {n : Nat} (h : IsDigits w n) : w ≠ [] := by
  cases h <;> simp

theorem isDigits_of_readVarintWithin : ∀ {width : Nat} {b : Bytes} {r : Reading Nat b},
    readVarintWithin (width + 1) b = some r →
      ∃ w, b = w ++ r.rest ∧ IsDigits w r.value ∧ w.length ≤ width + 1 ∧
        r.value < 2 * 128 ^ width := by
  -- Each byte but the last takes seven bits off the number, and the last one that the width allows
  -- holds a single bit.
  intro width
  induction width with
  | zero =>
    intro b r h
    cases b with
    | nil => cases h
    | cons x rest =>
      simp only [readVarintWithin] at h
      split at h
      · rename_i hlast
        split at h
        · cases h
        · rename_i hbit
          cases h
          have hone : ¬ 1 < x.toNat := by simpa [UInt8.lt_iff_toNat_lt] using hbit
          exact ⟨[x], rfl, .last hlast, le_rfl, by simp only; omega⟩
      · cases h
  | succ width ih =>
    intro b r h
    cases b with
    | nil => cases h
    | cons x rest =>
      rw [readVarintWithin] at h
      split at h
      · rename_i hlast
        rw [if_neg (by omega)] at h
        cases h
        have hx : x.toNat < 128 := UInt8.lt_iff_toNat_lt.1 hlast
        have hpos : 0 < 128 ^ width := Nat.pow_pos (by decide)
        refine ⟨[x], rfl, .last hlast, by simp, ?_⟩
        rw [pow_succ]
        simp only
        omega
      · rename_i hmore
        split at h
        · cases h
        · rename_i r' hr'
          cases h
          obtain ⟨w, hw, hdigits, hlength, hlt⟩ := ih hr'
          have hx : x.toNat < 256 := x.toNat_lt
          refine ⟨x :: w, ?_, .more (UInt8.not_lt.1 hmore) hdigits, by simp; omega, ?_⟩
          · simp only [List.cons_append]
            rw [← hw]
          · rw [pow_succ]
            simp only
            omega

/-- Digits are read in any width that they fit. -/
theorem IsDigits.readVarintWithin {w : Bytes} {n : Nat} (h : IsDigits w n) :
    ∀ {width : Nat}, w.length ≤ width + 1 → n < 2 * 128 ^ width → ∀ rest : Bytes,
      ∃ hlt, readVarintWithin (width + 1) (w ++ rest) = some ⟨n, rest, hlt⟩ := by
  induction h with
  | @last x hx =>
    intro width _ hn rest
    refine ⟨by simp, ?_⟩
    have hbit : ¬ (width = 0 ∧ 1 < x) := by
      rintro ⟨rfl, hbit⟩
      have hbit' : 1 < x.toNat := UInt8.lt_iff_toNat_lt.1 hbit
      omega
    simp [Wire.readVarintWithin, hx, hbit]
  | @more x w n hx hdigits ih =>
    intro width hlength hn rest
    have hw := List.length_pos_iff.2 hdigits.ne_nil
    rw [List.length_cons] at hlength
    obtain ⟨width, rfl⟩ := Nat.exists_eq_add_one.2 (by omega : 0 < width)
    have hx' : ¬ x < 128 := UInt8.not_lt.2 hx
    rw [pow_succ] at hn
    obtain ⟨hlt, hread⟩ := @ih width (by omega) (by omega) rest
    refine ⟨by simp only [List.cons_append, List.length_cons]; omega, ?_⟩
    simp [Wire.readVarintWithin, hx', hread]

theorem readVarint_exact : TakesExactly readVarint IsVarint := by
  intro b n rest
  have hlimit : 2 * 128 ^ 9 = sizeLimit := rfl
  constructor
  · rintro ⟨hlt, h⟩
    rw [readVarint] at h
    split at h
    · rename_i r hr
      cases h
      obtain ⟨w, hw, hdigits, hlength, hn⟩ := isDigits_of_readVarintWithin hr
      exact ⟨w, hw, hdigits, hlength, hn⟩
    · cases h
  · rintro ⟨w, rfl, hdigits, hlength, hn⟩
    obtain ⟨hlt, hread⟩ := hdigits.readVarintWithin hlength (by rw [hlimit]; exact hn) rest
    exact ⟨hlt, by rw [readVarint, hread]⟩

/-! ### Keys, byte strings and values of a fixed width -/

theorem readKey_exact : TakesExactly readKey IsKey := by
  intro b k rest
  constructor
  · intro h
    rw [readKey] at h
    obtain ⟨⟨n, rest', hlt⟩, hread, h⟩ := reads_bind_iff.1 h
    obtain ⟨w, hw, hvarint⟩ := readVarint_exact.exists_word ⟨hlt, hread⟩
    split at h
    · exact absurd h not_reads_error
    · rename_i hlimit
      split at h
      · exact absurd h not_reads_error
      · rename_i wireType hcode
        split at h
        · exact absurd h not_reads_error
        · rename_i hzero
          obtain ⟨rfl, rfl⟩ := reads_ok_iff.1 h
          have hcode := WireType.code_of_ofCode? hcode
          simp only [keyLimit] at hlimit hcode hzero
          refine ⟨w, hw, ?_, ?_⟩
          · simp only [Reading.map]
            have heq : 8 * (n / 8) + wireType.code = n := by omega
            rwa [heq]
          · simp only [Reading.map, Key.IsValid]
            omega
  · rintro ⟨w, rfl, hvarint, hone, hlimit⟩
    have hcode : k.wireType.code < 8 := by cases k.wireType <;> decide
    have hkey : ¬ keyLimit ≤ 8 * k.number + k.wireType.code := by rw [keyLimit]; omega
    have hmod : (8 * k.number + k.wireType.code) % 8 = k.wireType.code := by omega
    have hdiv : (8 * k.number + k.wireType.code) / 8 = k.number := by omega
    have hzero : k.number ≠ 0 := by omega
    have hread := readVarint_exact.reads hvarint rest
    rw [readKey, hread.bind_eq]
    refine ⟨hread.shorter, ?_⟩
    simp [hkey, hmod, hdiv, hzero, WireType.ofCode?_code, Reading.map]

theorem readSized_exact : TakesExactly readSized IsSized := by
  intro b content rest
  constructor
  · intro h
    rw [readSized] at h
    obtain ⟨⟨n, rest', hlt⟩, hread, h⟩ := reads_bind_iff.1 h
    obtain ⟨l, rfl, hvarint⟩ := readVarint_exact.exists_word ⟨hlt, hread⟩
    split at h
    · rename_i hle
      obtain ⟨rfl, rfl⟩ := reads_ok_iff.1 h
      simp only at hle
      refine ⟨l ++ rest'.take n, by simp, l, rfl, ?_⟩
      rwa [List.length_take, Nat.min_eq_left hle]
    · exact absurd h not_reads_error
  · rintro ⟨w, rfl, l, rfl, hvarint⟩
    have hread := readVarint_exact.reads hvarint (content ++ rest)
    rw [List.append_assoc, readSized, hread.bind_eq]
    have hlt := hread.shorter
    rw [List.length_append] at hlt
    refine ⟨by omega, ?_⟩
    simp

theorem skipFixed_exact (width : Nat) (positive : 0 < width) :
    TakesExactly (skipFixed width positive) fun w _ => w.length = width := by
  intro b v rest
  constructor
  · intro h
    rw [skipFixed] at h
    split at h
    · rename_i hle
      obtain ⟨_, rfl⟩ := reads_ok_iff.1 h
      exact ⟨b.take width, by simp, by simp [hle]⟩
    · exact absurd h not_reads_error
  · rintro ⟨w, rfl, rfl⟩
    refine ⟨by rw [List.length_append]; omega, ?_⟩
    rw [skipFixed, dif_pos (by simp)]
    simp

/-! ### Scalars -/

theorem Scalar.decode_exact : ∀ k : Scalar, TakesExactly k.decode k.Denotes
  | .int32 => readVarint_exact.map Int32.ofNat
  | .int64 => readVarint_exact.map Int64.ofNat
  | .uint64 => readVarint_exact.map UInt64.ofNat
  | .bool => readVarint_exact.map (· != 0)
  | .string => by
    intro b v rest
    constructor
    · intro h
      rw [decode] at h
      obtain ⟨⟨content, rest', hlt⟩, hread, h⟩ := reads_bind_iff.1 h
      obtain ⟨w, hw, hsized⟩ := readSized_exact.exists_word ⟨hlt, hread⟩
      split at h
      · rename_i s hs
        obtain ⟨rfl, rfl⟩ := reads_ok_iff.1 h
        simp only at hs
        obtain rfl := Text.decodeUtf8?_eq_some_iff.1 hs
        exact ⟨w, hw, hsized⟩
      · exact absurd h not_reads_error
    · rintro ⟨w, rfl, hsized⟩
      have hread := readSized_exact.reads hsized rest
      rw [decode, hread.bind_eq]
      refine ⟨hread.shorter, ?_⟩
      simp only [Text.decodeUtf8?_encodeUtf8]
      rfl
  | .bytes => readSized_exact

theorem Scalar.reads_read_iff {k : Scalar} {found : WireType} {b : Bytes} {v : k.Carrier}
    {rest : Bytes} : Reads (k.read found b) v rest ↔
      found = k.wireType ∧ ∃ w, b = w ++ rest ∧ k.Denotes w v := by
  rw [read]
  by_cases h : found = k.wireType
  · rw [if_pos h, k.decode_exact _ _ _]
    exact (and_iff_right h).symm
  · rw [if_neg h]
    exact ⟨fun hread => absurd hread not_reads_error, fun hread => absurd hread.1 h⟩

/-! ### Values that are passed over -/

theorem isGroup_of_skipGroup {depth : Nat}
    (hskip : ∀ {key : Key} {b rest : Bytes}, Reads (skip depth key b) () rest →
      ∃ w, b = w ++ rest ∧ IsSkipped depth key w) {number : Nat} :
    ∀ {b rest : Bytes}, Reads (skipGroup (skip depth) number b) () rest →
      ∃ w, b = w ++ rest ∧ IsGroup depth number w := by
  -- The records behind the first are a group again, and there are fewer bytes of them.
  intro b
  induction hn : b.length using Nat.strong_induction_on generalizing b with
  | _ n ih =>
    intro rest h
    subst hn
    rw [skipGroup] at h
    obtain ⟨⟨key, content, hshorter⟩, hread, h⟩ := reads_bind_iff.1 h
    obtain ⟨w, rfl, hkey⟩ := readKey_exact.exists_word ⟨hshorter, hread⟩
    obtain ⟨number', wireType⟩ := key
    simp only at h
    split at h
    · rename_i hend
      split at h
      · rename_i hnumber
        obtain ⟨_, rfl⟩ := reads_ok_iff.1 h
        subst hend hnumber
        exact ⟨w, rfl, .ended hkey⟩
      · exact absurd h not_reads_error
    · obtain ⟨⟨_, behind, hshorter'⟩, hskipped, h⟩ := reads_bind_iff.1 h
      obtain ⟨v, rfl, hv⟩ := hskip ⟨hshorter', hskipped⟩
      obtain ⟨⟨_, rest', hshorter''⟩, hgroup, h⟩ := reads_bind_iff.1 h
      obtain ⟨_, rfl⟩ := reads_ok_iff.1 h
      obtain ⟨g, rfl, hg⟩ := ih behind.length (by omega) rfl ⟨hshorter'', hgroup⟩
      exact ⟨w ++ (v ++ g), by simp, .record hkey hv hg⟩

theorem isSkipped_of_skip : ∀ {depth : Nat} {key : Key} {b rest : Bytes},
    Reads (skip depth key b) () rest → ∃ w, b = w ++ rest ∧ IsSkipped depth key w := by
  intro depth
  induction depth with
  | zero =>
    intro key b rest h
    exact absurd h not_reads_error
  | succ depth ih =>
    rintro ⟨number, wireType⟩ b rest h
    cases wireType with
    | varint =>
      obtain ⟨n, hread, _⟩ := reads_map_iff.1 h
      obtain ⟨w, rfl, hw⟩ := readVarint_exact.exists_word hread
      exact ⟨w, rfl, .varint hw⟩
    | sixtyFourBit =>
      obtain ⟨w, rfl, hw⟩ := (skipFixed_exact _ (by decide)).exists_word h
      exact ⟨w, rfl, .sixtyFourBit hw⟩
    | lengthDelimited =>
      obtain ⟨content, hread, _⟩ := reads_map_iff.1 h
      obtain ⟨w, rfl, hw⟩ := readSized_exact.exists_word hread
      exact ⟨w, rfl, .lengthDelimited hw⟩
    | startGroup =>
      obtain ⟨w, rfl, hw⟩ := isGroup_of_skipGroup ih h
      exact ⟨w, rfl, .group hw⟩
    | endGroup => exact absurd h not_reads_error
    | thirtyTwoBit =>
      obtain ⟨w, rfl, hw⟩ := (skipFixed_exact _ (by decide)).exists_word h
      exact ⟨w, rfl, .thirtyTwoBit hw⟩

mutual

theorem IsSkipped.reads : ∀ {depth : Nat} {key : Key} {w : Bytes}, IsSkipped depth key w →
    ∀ rest, Reads (skip depth key (w ++ rest)) () rest
  | _, _, _, .varint hw, rest => (readVarint_exact.reads hw rest).map _
  | _, _, _, .sixtyFourBit hw, rest => (skipFixed_exact _ (by decide)).reads hw rest
  | _, _, _, .lengthDelimited hw, rest => (readSized_exact.reads hw rest).map _
  | _, _, _, .group hw, rest => hw.reads rest
  | _, _, _, .thirtyTwoBit hw, rest => (skipFixed_exact _ (by decide)).reads hw rest

theorem IsGroup.reads : ∀ {depth number : Nat} {w : Bytes}, IsGroup depth number w →
    ∀ rest, Reads (skipGroup (skip depth) number (w ++ rest)) () rest
  | _, _, _, .ended hkey, rest => by
    have hread := readKey_exact.reads hkey rest
    rw [skipGroup, hread.bind_eq]
    exact ⟨hread.shorter, by simp [Reading.map, pure, Except.pure]⟩
  | _, _, _, @IsGroup.record _ _ key _ v b hkey hv hb, rest => by
    have hread := readKey_exact.reads hkey (v ++ (b ++ rest))
    have hskipped := hv.reads (b ++ rest)
    have hgroup := hb.reads rest
    -- The value of an end of a group cannot be passed over.
    have hopen : ¬ key.wireType = .endGroup := by
      cases hv <;> simp
    rw [List.append_assoc, List.append_assoc, skipGroup, hread.bind_eq]
    simp only [hopen, if_false]
    rw [hskipped.bind_eq, hgroup.bind_eq]
    have hlt := hread.shorter
    have hlt' := hskipped.shorter
    have hlt'' := hgroup.shorter
    exact ⟨by omega, rfl⟩

end

theorem skip_exact (depth : Nat) (key : Key) :
    TakesExactly (skip depth key) fun w _ => IsSkipped depth key w := by
  intro b v rest
  constructor
  · exact isSkipped_of_skip
  · rintro ⟨w, rfl, hw⟩
    exact hw.reads rest

end LedgerGateway.Wire
