import LedgerGateway.Proofs.Wire.Records
import LedgerGateway.Proofs.Wire.Slot

/-!
# Which bytes are accepted

Reading a message succeeds on exactly the rows of complete records (`Fields.exists_decode_iff`).

What is read is in the grammar (`Fields.isValue_of_readField`) by induction on the depth: only a
nested message or entry goes on to records of its own, one level below.  The reader compares a
length with all the bytes that are left, those behind the message around it included, but it stops
only where as many bytes are left as the length says, so the records of a nested message fill it
exactly (`Fields.exists_isRow_of_readFilled`).

What is in the grammar, strict or not, is read (`Fields.IsRow.takesAll`) by recursion on how it is a
word of it.  No value depends on what stands behind it, so it does not matter where a nested message
ends.
-/

namespace LedgerGateway.Wire

namespace Fields

/-! ### Entries -/

/-- The entry that a record of its two fields stands for. -/
def entryOf (r : entryFields.Record) : String × Bytes := (r.1, r.2.1)

theorem exists_entryOf (e : String × Bytes) : ∃ r, e = entryOf r := ⟨(e.1, e.2, ()), rfl⟩

section Entry

variable {depth : Nat} {key : Key} {b rest : Bytes} {r : entryFields.Record} {e : String × Bytes}

theorem reads_entryScalar_iff {kind : Scalar} {base : entryFields.Record → kind.Carrier}
    {put : entryFields.Record → kind.Carrier → entryFields.Record} (type : String)
    (hslot : entryFields.slot? key.number = some ⟨.scalar kind, base, put⟩) :
    Reads (return (← kind.read key.wireType b).map fun v => entryOf (put r v)) e rest ↔
      ∃ r', Reads (entryFields.readField type depth key b r) r' rest ∧ e = entryOf r' := by
  rw [reads_map_iff]
  constructor
  · rintro ⟨v, hread, rfl⟩
    exact ⟨_, (reads_readField_of_slot hslot).2 ⟨v, hread.mapError _, rfl⟩, rfl⟩
  · rintro ⟨_, hfield, rfl⟩
    obtain ⟨v, hread, rfl⟩ := (reads_readField_of_slot hslot).1 hfield
    exact ⟨v, reads_mapError_iff.1 hread, rfl⟩

/-- An entry is read as the message it is. -/
theorem reads_readEntryField_iff (type : String) :
    Reads (readEntryField depth key b (entryOf r)) e rest ↔
      ∃ r', Reads (entryFields.readField type depth key b r) r' rest ∧ e = entryOf r' := by
  rw [readEntryField, reads_mapError_iff]
  by_cases hkey : key.number = entryKey.number
  · have hslot : entryFields.slot? key.number = some _ := if_pos hkey
    rw [if_pos hkey]
    exact reads_entryScalar_iff type hslot
  · rw [if_neg hkey]
    by_cases hvalue : key.number = entryValue.number
    · have hslot : entryFields.slot? key.number = some _ :=
        (if_neg hkey).trans (congrArg _ (if_pos hvalue))
      rw [if_pos hvalue]
      exact reads_entryScalar_iff type hslot
    · have hslot : entryFields.slot? key.number = none :=
        (if_neg hkey).trans (congrArg _ (if_neg hvalue))
      rw [if_neg hvalue, reads_map_iff]
      constructor
      · rintro ⟨_, hread, rfl⟩
        exact ⟨r, (reads_readField_of_none hslot).2 ⟨rfl, hread⟩, rfl⟩
      · rintro ⟨_, hfield, rfl⟩
        obtain ⟨rfl, hread⟩ := (reads_readField_of_none hslot).1 hfield
        exact ⟨(), hread, rfl⟩

end Entry

/-! ### What is read is in the grammar -/

section Read

variable {ρ : Type} {f : Fields} {depth : Nat}

theorem exists_isRow_of_readRecords {step : Step ρ}
    (hstep : ∀ {key : Key} {b rest : Bytes} {m m' : ρ}, Reads (step key b m) m' rest →
      ∃ v, b = v ++ rest ∧ f.IsValue false depth key v) {left : Nat} :
    ∀ {b : Bytes} {m : ρ} {filled : Filled ρ left}, readRecords step left b m = .ok filled →
      ∃ w, b = w ++ filled.rest ∧ f.IsRow false depth w := by
  intro b
  induction hn : b.length using Nat.strong_induction_on generalizing b with
  | _ n ih =>
    intro m filled h
    subst hn
    rw [readRecords] at h
    split at h
    · cases h
      exact ⟨[], rfl, .nil⟩
    · split at h
      · cases h
      · obtain ⟨⟨key, content, hlt⟩, hkey, h⟩ := bind_eq_ok_iff.1 h
        obtain ⟨⟨m', behind, hlt'⟩, hvalue, h⟩ := bind_eq_ok_iff.1 h
        obtain ⟨w, rfl, hw⟩ := readKey_exact.exists_word (reads_mapError_iff.1 ⟨hlt, hkey⟩)
        obtain ⟨v, rfl, hv⟩ := hstep ⟨hlt', hvalue⟩
        obtain ⟨u, hu, hrow⟩ := ih behind.length (Nat.lt_trans hlt' hlt) rfl h
        refine ⟨w ++ (v ++ u), ?_, .cons hw hv hrow⟩
        rw [List.append_assoc, List.append_assoc, ← hu]

/-- What is read behind a length fills it. -/
theorem exists_isRow_of_readFilled {step : Step ρ}
    (hstep : ∀ {key : Key} {b rest : Bytes} {m m' : ρ}, Reads (step key b m) m' rest →
      ∃ v, b = v ++ rest ∧ f.IsValue false depth key v) {b rest : Bytes} {m m' : ρ}
    (h : Reads (readFilled step b m) m' rest) :
    ∃ l content, b = l ++ content ++ rest ∧ IsVarint l content.length ∧
      f.IsRow false depth content := by
  rw [readFilled] at h
  obtain ⟨⟨n, behind, hlt⟩, hsize, h⟩ := reads_bind_iff.1 h
  obtain ⟨l, rfl, hl⟩ := readVarint_exact.exists_word (reads_mapError_iff.1 ⟨hlt, hsize⟩)
  split at h
  · rename_i hle
    obtain ⟨filled, hfilled, h⟩ := reads_bind_iff.1 h
    obtain ⟨rfl, rfl⟩ := reads_ok_iff.1 h
    obtain ⟨content, hcontent, hrow⟩ := exists_isRow_of_readRecords hstep hfilled
    -- The reader stopped where it should, so the records have the length in front of them.
    have hlength := filled.length_rest
    simp only at hle hcontent hlength
    have hn : content.length = n := by
      have happend := congrArg List.length hcontent
      rw [List.length_append] at happend
      omega
    refine ⟨l, content, ?_, hn ▸ hl, hrow⟩
    rw [List.append_assoc, ← hcontent]
  · exact absurd h not_reads_error

theorem exists_isRow_of_enter {step : (depth : Nat) → Step ρ}
    (hstep : ∀ {d : Nat}, d < depth → ∀ {key : Key} {b rest : Bytes} {m m' : ρ},
      Reads (step d key b m) m' rest → ∃ v, b = v ++ rest ∧ f.IsValue false d key v)
    {b rest : Bytes} {m m' : ρ} (h : Reads (enter step depth b m) m' rest) :
    ∃ d l content, depth = d + 1 ∧ b = l ++ content ++ rest ∧ IsVarint l content.length ∧
      f.IsRow false d content := by
  cases depth with
  | zero => exact absurd h not_reads_error
  | succ d =>
    obtain ⟨l, content, hb, hl, hrow⟩ := exists_isRow_of_readFilled (hstep (Nat.lt_succ_self d)) h
    exact ⟨d, l, content, rfl, hb, hl, hrow⟩

end Read

/-- **Only complete records are read.** -/
theorem isValue_of_readField : ∀ {depth : Nat} {f : Fields} {type : String} {key : Key}
    {b rest : Bytes} {m m' : f.Record}, Reads (f.readField type depth key b m) m' rest →
      ∃ v, b = v ++ rest ∧ f.IsValue false depth key v := by
  -- A nested message has fields of its own, so the statement is about all fields at a depth.
  intro depth
  induction depth using Nat.strong_induction_on with
  | _ depth ih =>
    intro f type key b rest m m' h
    cases hslot : f.slot? key.number with
    | none =>
      obtain ⟨_, hskip⟩ := (reads_readField_of_none hslot).1 h
      obtain ⟨v, hb, hv⟩ := (skip_exact _ _).exists_word hskip
      exact ⟨v, hb, .unknown (slot?_eq_none_iff.1 hslot) hv⟩
    | some s =>
      obtain ⟨v, hread, _⟩ := (reads_readField_of_slot hslot).1 h
      have hitem := item?_of_slot? hslot
      obtain ⟨item, base, put⟩ := s
      cases item with
      | scalar kind =>
        obtain ⟨hfound, w, hb, hw⟩ := Scalar.reads_read_iff.1 (reads_mapError_iff.1 hread)
        exact ⟨w, hb, .scalar hitem hfound hw⟩
      | message innerType inner =>
        simp only [Item.read, enterMessage] at hread
        split at hread
        · rename_i hfound
          obtain ⟨d, l, content, rfl, hb, hl, hrow⟩ := exists_isRow_of_enter
            (fun hd => ih _ hd) hread
          exact ⟨l ++ content, hb, .message hitem hfound hl hrow⟩
        · exact absurd hread not_reads_error
      | entry =>
        -- An entry has a reader of its own, but it reads what the reader of its fields would.
        have hstep : ∀ {d : Nat}, d < depth → ∀ {key : Key} {b rest : Bytes}
            {e e' : String × Bytes}, Reads (readEntryField d key b e) e' rest →
              ∃ v, b = v ++ rest ∧ entryFields.IsValue false d key v := by
          intro d hd key b rest e e' h
          obtain ⟨r, rfl⟩ := exists_entryOf e
          obtain ⟨r', hread', _⟩ := (reads_readEntryField_iff type).1 h
          exact ih d hd hread'
        obtain ⟨d, l, content, rfl, hb, hl, hrow⟩ := exists_isRow_of_enter hstep hread
        exact ⟨l ++ content, hb, .entry hitem (absurd · Bool.false_ne_true) hl hrow⟩

/-! ### What is in the grammar is read -/

section Record

variable {f : Fields} {type : String} {depth : Nat} {key : Key} {m : f.Record} {P : Nat → Prop}

theorem reads_scalar {kind : Scalar} {base : f.Record → kind.Carrier}
    {put : f.Record → kind.Carrier → f.Record} {w : Bytes} {v : kind.Carrier}
    (hslot : f.slot? key.number = some ⟨.scalar kind, base, put⟩)
    (hfound : key.wireType = kind.wireType) (hw : kind.Denotes w v) (rest : Bytes) :
    Reads (f.readField type depth key (w ++ rest) m) (put m v) rest :=
  (reads_readField_of_slot hslot).2
    ⟨v, (Scalar.reads_read_iff.2 ⟨hfound, w, rfl, hw⟩).mapError _, rfl⟩

theorem reads_message {innerType : String} {inner : Fields} {base : f.Record → inner.Record}
    {put : f.Record → inner.Record → f.Record} {l content : Bytes} {v : inner.Record}
    (hslot : f.slot? key.number = some ⟨.message innerType inner, base, put⟩)
    (hfound : key.wireType = .lengthDelimited) (hl : IsVarint l content.length)
    (h : TakesAll (inner.readField innerType depth) P content (base m) v) (rest : Bytes) :
    Reads (f.readField type (depth + 1) key (l ++ content ++ rest) m) (put m v) rest := by
  refine (reads_readField_of_slot hslot).2 ⟨v, ?_, rfl⟩
  rw [Item.read, hfound]
  exact h.enterMessage hl rest

theorem reads_entry {base : f.Record → String × Bytes} {put : f.Record → String × Bytes → f.Record}
    {l content : Bytes} {r r' : entryFields.Record} {entryType : String}
    (hslot : f.slot? key.number = some ⟨.entry, base, put⟩) (hbase : base m = entryOf r)
    (hl : IsVarint l content.length)
    (h : TakesAll (entryFields.readField entryType depth) P content r r') (rest : Bytes) :
    Reads (f.readField type (depth + 1) key (l ++ content ++ rest) m) (put m (entryOf r'))
      rest := by
  refine (reads_readField_of_slot hslot).2 ⟨entryOf r', ?_, rfl⟩
  have hentry : TakesAll (readEntryField depth) P content (entryOf r) (entryOf r') :=
    h.lift entryOf fun _ hread => (reads_readEntryField_iff entryType).2 ⟨_, hread, rfl⟩
  rw [← hbase] at hentry
  exact hentry.enter hl rest

theorem reads_unknown {w : Bytes} (hitem : f.item? key.number = none)
    (hw : IsSkipped depth key w) (rest : Bytes) :
    Reads (f.readField type depth key (w ++ rest) m) m rest :=
  (reads_readField_of_none (slot?_eq_none_iff.2 hitem)).2 ⟨rfl, hw.reads rest⟩

end Record

mutual

theorem IsValue.reads {strict : Bool} : ∀ {f : Fields} {depth : Nat} {key : Key} {w : Bytes},
    f.IsValue strict depth key w → ∀ (type : String) (m : f.Record),
      ∃ m', ∀ rest, Reads (f.readField type depth key (w ++ rest) m) m' rest
  | _, _, _, _, .scalar hitem hfound hw, _, _ => by
    obtain ⟨⟨_, base, put⟩, hslot, rfl⟩ := exists_slot_of_item? hitem
    exact ⟨_, reads_scalar hslot hfound hw⟩
  | _, _, _, _, .message hitem hfound hl hrow, _, m => by
    obtain ⟨⟨_, base, put⟩, hslot, rfl⟩ := exists_slot_of_item? hitem
    obtain ⟨v, hall⟩ := hrow.takesAll _ (base m)
    exact ⟨_, reads_message hslot hfound hl hall⟩
  | _, _, _, _, .entry hitem _ hl hrow, type, m => by
    obtain ⟨⟨_, base, put⟩, hslot, rfl⟩ := exists_slot_of_item? hitem
    obtain ⟨r₀, hr₀⟩ := exists_entryOf (base m)
    obtain ⟨r, hall⟩ := hrow.takesAll type r₀
    exact ⟨_, reads_entry hslot hr₀ hl hall⟩
  | _, _, _, _, .unknown hitem hw, _, m => ⟨m, reads_unknown hitem hw⟩

theorem IsRow.takesAll {strict : Bool} : ∀ {f : Fields} {depth : Nat} {b : Bytes},
    f.IsRow strict depth b → ∀ (type : String) (m : f.Record),
      ∃ m', TakesAll (f.readField type depth) (fun _ => True) b m m'
  | _, _, _, .nil, _, m => ⟨m, .nil⟩
  | _, _, _, .cons (w := w) (v := v) hkey hv hb, type, m => by
    obtain ⟨m', hread⟩ := hv.reads type m
    obtain ⟨m'', hall⟩ := hb.takesAll type m'
    refine ⟨m'', ?_⟩
    rw [← List.append_assoc]
    exact .cons trivial (takes_of_reads hkey hread) hall

end

/-- **Exactly the rows of complete records are messages.** -/
theorem exists_decode_iff {f : Fields} {type : String} {b : Bytes} :
    (∃ m, f.decode type b = .ok m) ↔ f.IsRow false nestingLimit b := by
  constructor
  · rintro ⟨m, h⟩
    obtain ⟨filled, hfilled, _⟩ := bind_eq_ok_iff.1 h
    obtain ⟨w, hw, hrow⟩ := exists_isRow_of_readRecords isValue_of_readField hfilled
    rw [List.length_eq_zero_iff.1 filled.length_rest, List.append_nil] at hw
    exact hw ▸ hrow
  · intro h
    obtain ⟨m, hall⟩ := h.takesAll type f.default
    exact ⟨m, hall.decode_eq⟩

end Fields

end LedgerGateway.Wire
