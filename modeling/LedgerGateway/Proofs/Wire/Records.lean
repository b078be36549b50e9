import LedgerGateway.Proofs.Wire.Exact

/-!
# Reading rows of records

A record is a key and a value, and reading it takes a message to another (`Takes`).  A row of
records takes a message through all of them (`TakesAll`), and the reader of rows does the same
(`TakesAll.readRecords`), also when the row stands behind its length inside another record
(`TakesAll.enter`).  Both say where the records end, so they hold whatever stands behind.  A message
that is read from bytes is the one without content taken through them (`TakesAll.decode_eq`).

A reader that hands the records of some fields on to another reader takes rows of such records the
same way (`TakesAll.lift`).
-/

namespace LedgerGateway.Wire

/-- A reader of the value of one record, on top of a message. -/
abbrev Step (ρ : Type) := Key → (b : Bytes) → ρ → Except DecodeError (Reading ρ b)

variable {ρ σ : Type} {step : Step ρ} {step' : Step σ} {P Q : Nat → Prop} {n : Nat}
  {w v b c : Bytes} {m m' m'' : ρ}

/-! ### One record -/

/-- The bytes are a record of field `n`, and reading it takes `m` to `m'`. -/
def Takes (step : Step ρ) (n : Nat) (w : Bytes) (m m' : ρ) : Prop :=
  ∀ rest : Bytes, ∃ (key : Key) (content : Bytes), key.number = n ∧
    Reads (readKey (w ++ rest)) key content ∧ Reads (step key content m) m' rest

/-- A key in front of a value makes a record. -/
theorem takes_of_reads {key : Key} (hkey : IsKey w key)
    (h : ∀ rest, Reads (step key (v ++ rest) m) m' rest) :
    Takes step key.number (w ++ v) m m' := by
  intro rest
  refine ⟨key, v ++ rest, rfl, ?_, h rest⟩
  rw [List.append_assoc]
  exact readKey_exact.reads hkey _

/-! ### Rows -/

/-- The bytes are a row of records of fields with numbers in `P`, and reading them takes `m` to
`m'`. -/
inductive TakesAll (step : Step ρ) (P : Nat → Prop) : Bytes → ρ → ρ → Prop
  | nil {m : ρ} : TakesAll step P [] m m
  | cons {n : Nat} {w b : Bytes} {m m' m'' : ρ} : P n → Takes step n w m m' →
      TakesAll step P b m' m'' → TakesAll step P (w ++ b) m m''

namespace TakesAll

theorem single (hn : P n) (h : Takes step n w m m') : TakesAll step P w m m' := by
  have hall := cons hn h nil
  rwa [List.append_nil] at hall

theorem append (h : TakesAll step P b m m') (h' : TakesAll step P c m' m'') :
    TakesAll step P (b ++ c) m m'' := by
  induction h with
  | nil => exact h'
  | cons hn htakes _ ih =>
    rw [List.append_assoc]
    exact cons hn htakes (ih h')

theorem mono (hsub : ∀ n, P n → Q n) (h : TakesAll step P b m m') : TakesAll step Q b m m' := by
  induction h with
  | nil => exact nil
  | cons hn htakes _ ih => exact cons (hsub _ hn) htakes ih

/-- Records of fields that a reader hands on to another are read as that one reads them. -/
theorem lift (put : ρ → σ)
    (hput : ∀ {key : Key} {b rest : Bytes} {m m' : ρ}, P key.number → Reads (step key b m) m' rest →
      Reads (step' key b (put m)) (put m') rest)
    (h : TakesAll step P b m m') : TakesAll step' P b (put m) (put m') := by
  induction h with
  | nil => exact nil
  | cons hn htakes _ ih =>
    refine cons hn ?_ ih
    intro rest
    obtain ⟨key, content, hkey, hread, hstep⟩ := htakes rest
    exact ⟨key, content, hkey, hread, hput (hkey ▸ hn) hstep⟩

/-- **A row of records is read through to its end.** -/
theorem readRecords (h : TakesAll step P b m m') :
    ∀ {rest : Bytes} {left : Nat} (hleft : rest.length = left),
      readRecords step left (b ++ rest) m = .ok ⟨m', rest, hleft⟩ := by
  induction h with
  | nil =>
    intro rest left hleft
    rw [Wire.readRecords, dif_pos (by rw [List.nil_append]; exact hleft)]
    rfl
  | @cons n w b m m' m'' _ htakes _ ih =>
    intro rest left hleft
    obtain ⟨key, content, _, hkey, hstep⟩ := htakes (b ++ rest)
    rw [← List.append_assoc] at hkey
    have hlong : left < (w ++ b ++ rest).length := by
      have hshorter := hkey.shorter
      have hshorter' := hstep.shorter
      rw [List.length_append] at hshorter'
      omega
    rw [Wire.readRecords, dif_neg (by omega), if_neg (by omega),
      (hkey.mapError DecodeError.ofFault).bind_eq, hstep.bind_eq]
    exact ih hleft

/-- A row of records behind its length is a nested message. -/
theorem enter {step : (depth : Nat) → Step ρ} {depth : Nat} {l : Bytes} (hl : IsVarint l b.length)
    (h : TakesAll (step depth) P b m m') (rest : Bytes) :
    Reads (enter step (depth + 1) (l ++ b ++ rest) m) m' rest := by
  have hread := (readVarint_exact.reads hl (b ++ rest)).mapError DecodeError.ofFault
  rw [← List.append_assoc] at hread
  have hfits : b.length ≤ (b ++ rest).length := by rw [List.length_append]; omega
  have hleft : rest.length = (b ++ rest).length - b.length := by rw [List.length_append]; omega
  have hlt : rest.length < (l ++ b ++ rest).length := by
    have hshorter := hread.shorter
    rw [List.length_append] at hshorter
    omega
  refine ⟨hlt, ?_⟩
  rw [Wire.enter, readFilled, hread.bind_eq]
  simp only [hfits, if_true, h.readRecords hleft]
  rfl

theorem enterMessage {step : (depth : Nat) → Step ρ} {depth : Nat} {l : Bytes}
    (hl : IsVarint l b.length) (h : TakesAll (step depth) P b m m') (rest : Bytes) :
    Reads (enterMessage step (depth + 1) .lengthDelimited (l ++ b ++ rest) m) m' rest := by
  rw [Wire.enterMessage, if_pos rfl]
  exact h.enter hl rest

theorem decode_eq {f : Fields} {type : String} {m : f.Record}
    (h : TakesAll (f.readField type nestingLimit) P b f.default m) : f.decode type b = .ok m := by
  have hread := h.readRecords (List.length_nil (α := UInt8))
  rw [List.append_nil] at hread
  rw [Fields.decode, hread]
  rfl

end TakesAll

end LedgerGateway.Wire
