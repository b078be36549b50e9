import LedgerGateway.Proofs.Wire.Records
import LedgerGateway.Proofs.Wire.Written
import LedgerGateway.Wire.Message
import Mathlib.Order.MinMax

/-!
# Reading messages that were written

Whatever a message is written as, reading it on top of another message puts it there
(`Fields.Writes.takesAll`).  On top of the message without content that is the message itself, so
reading gives back what was written (`Fields.Writes.decode_eq`, `decode_encode`).

The proof goes along the writing.  Each field contributes records of its own number, which the
reader of that field takes, and the records of the fields behind it pass through to the reader of
those, because no two fields have the same number.  A nested message is a row of records of its own
and takes one from the depth that is left.
-/

namespace LedgerGateway.Wire

namespace Fields

/-! ### One field and the fields behind it -/

/-- Records of the first field change that field only, and records of the fields behind it go to the
reader of those. -/
theorem takesAll_append (f : Fields) {rest : Fields} {label : Label} {type : String} {depth : Nat}
    {w b : Bytes} {m₀ : f.Record} {m m' : rest.Record} (put : rest.Record → f.Record)
    (hlabel : label.number ∉ rest.numbers) (hnumbers : f.numbers = label.number :: rest.numbers)
    (hstep : ∀ {key : Key} {b : Bytes} {m : rest.Record}, key.number ≠ label.number →
      f.readField type depth key b (put m) =
        return (← rest.readField type depth key b m).map put)
    (hown : TakesAll (f.readField type depth) (· = label.number) w m₀ (put m))
    (hrest : TakesAll (rest.readField type depth) (· ∈ rest.numbers) b m m') :
    TakesAll (f.readField type depth) (· ∈ f.numbers) (w ++ b) m₀ (put m') := by
  have hlift : TakesAll (f.readField type depth) (· ∈ rest.numbers) b (put m) (put m') := by
    refine hrest.lift put ?_
    intro key b rest' m m' hkey hread
    rw [hstep (ne_of_mem_of_not_mem hkey hlabel)]
    exact hread.map put
  rw [hnumbers]
  exact (hown.mono fun n hn => hn ▸ List.mem_cons_self).append
    (hlift.mono fun n hn => List.mem_cons_of_mem _ hn)

/-! ### One record -/

@[simp]
theorem scalarKey_number (label : Label) (kind : Scalar) :
    (scalarKey label kind).number = label.number := rfl

@[simp]
theorem nestedKey_number (label : Label) : (nestedKey label).number = label.number := rfl

theorem IsFresh.isValid_scalarKey {label : Label} {others : List Nat} (h : IsFresh label others)
    (kind : Scalar) : (scalarKey label kind).IsValid := h.1

theorem IsFresh.isValid_nestedKey {label : Label} {others : List Nat} (h : IsFresh label others) :
    (nestedKey label).IsValid := h.1

theorem encodeNested_eq (label : Label) {length : Nat} {content : Bytes}
    (h : content.length = length) : encodeNested label length content =
      writeKey (nestedKey label) ++ (writeVarint content.length ++ content) := by
  rw [encodeNested, h, List.append_assoc]

/-- A scalar leaves a record unless it is zero, and without a record it stays as it was. -/
theorem takesAll_encodeUnlessZero {ρ : Type} {step : Step ρ} {P : Nat → Prop} (label : Label)
    (kind : Scalar) {v₀ v : kind.Carrier} (put : kind.Carrier → ρ)
    (hvalid : (scalarKey label kind).IsValid) (hn : P label.number)
    (hsize : (encodeUnlessZero label kind v).length < sizeLimit)
    (hstep : ∀ {b rest : Bytes}, Reads (kind.read kind.wireType b) v rest →
      Reads (step (scalarKey label kind) b (put v₀)) (put v) rest) :
    TakesAll step P (encodeUnlessZero label kind v) (put v₀)
      (put (if v = kind.zero then v₀ else v)) := by
  rw [encodeUnlessZero] at hsize ⊢
  by_cases hzero : v = kind.zero
  · rw [if_pos hzero, if_pos hzero]
    exact .nil
  · rw [if_neg hzero, List.length_append] at hsize
    rw [if_neg hzero, if_neg hzero]
    have htakes : Takes step label.number (writeKey (scalarKey label kind) ++ kind.encode v)
        (put v₀) (put v) :=
      takes_of_reads (isKey_writeKey hvalid) fun rest => hstep (kind.reads_read v (by omega) rest)
    exact .single hn htakes

/-- On top of zero there is no difference between a scalar that is zero and no record. -/
theorem takesAll_encodeUnlessZero_zero {ρ : Type} {step : Step ρ} {P : Nat → Prop} (label : Label)
    (kind : Scalar) {v : kind.Carrier} (put : kind.Carrier → ρ)
    (hvalid : (scalarKey label kind).IsValid) (hn : P label.number)
    (hsize : (encodeUnlessZero label kind v).length < sizeLimit)
    (hstep : ∀ {b rest : Bytes}, Reads (kind.read kind.wireType b) v rest →
      Reads (step (scalarKey label kind) b (put kind.zero)) (put v) rest) :
    TakesAll step P (encodeUnlessZero label kind v) (put kind.zero) (put v) := by
  have hall := takesAll_encodeUnlessZero label kind put hvalid hn hsize hstep
  by_cases hzero : v = kind.zero
  · rw [if_pos hzero] at hall
    rwa [hzero] at hall ⊢
  · rwa [if_neg hzero] at hall

/-- An entry is read as it was written. -/
theorem takesAll_encodeEntry {e : String × Bytes} (depth : Nat)
    (hsize : (encodeEntry e).length < sizeLimit) :
    TakesAll (readEntryField depth) (fun _ => True) (encodeEntry e) ("", []) e := by
  rw [encodeEntry, List.length_append] at hsize
  have hkey : TakesAll (readEntryField depth) (fun _ => True)
      (encodeUnlessZero entryKey .string e.1) ("", []) (e.1, []) :=
    takesAll_encodeUnlessZero_zero entryKey .string (fun k => (k, [])) (by decide) trivial
      (by omega) fun hread => (hread.map _).mapError _
  have hvalue : TakesAll (readEntryField depth) (fun _ => True)
      (encodeUnlessZero entryValue .bytes e.2) (e.1, []) e :=
    takesAll_encodeUnlessZero_zero entryValue .bytes (fun v => (e.1, v)) (by decide) trivial
      (by omega) fun hread => (hread.map _).mapError _
  exact hkey.append hvalue

/-! ### The records of one field -/

section Field

variable {label : Label} {rest : Fields} {type : String} {depth : Nat} {m : rest.Record}

theorem takesAll_scalars {kind : Scalar} (hfresh : IsFresh label rest.numbers) :
    ∀ {vs : List kind.Carrier} (vs₀ : List kind.Carrier),
      (vs.flatMap fun v => writeKey (scalarKey label kind) ++ kind.encode v).length < sizeLimit →
      TakesAll ((scalars label kind rest).readField type depth) (· = label.number)
        (vs.flatMap fun v => writeKey (scalarKey label kind) ++ kind.encode v)
        (vs₀, m) (vs₀ ++ vs, m) := by
  intro vs
  induction vs with
  | nil =>
    intro vs₀ _
    rw [List.append_nil]
    exact .nil
  | cons v vs ih =>
    intro vs₀ hsize
    rw [List.flatMap_cons, List.length_append, List.length_append] at hsize
    have hown : Takes ((scalars label kind rest).readField type depth) label.number
        (writeKey (scalarKey label kind) ++ kind.encode v) (vs₀, m) (vs₀ ++ [v], m) := by
      refine takes_of_reads (isKey_writeKey (hfresh.isValid_scalarKey kind)) ?_
      intro b
      rw [readField, if_pos (scalarKey_number label kind)]
      exact (((kind.reads_read v (by omega) b).mapError _).map _).mapError _
    have hbehind := ih (vs₀ ++ [v]) (by omega)
    rw [List.append_assoc, List.singleton_append] at hbehind
    exact .cons rfl hown hbehind

theorem takes_message {innerType : String} {inner : Fields} {P : Nat → Prop} {length : Nat}
    {w : Bytes} {v₀ : Option inner.Record} {v : inner.Record} (hfresh : IsFresh label rest.numbers)
    (hlength : w.length = length) (hsize : w.length < sizeLimit)
    (h : TakesAll (inner.readField innerType depth) P w (v₀.getD inner.default) v) :
    Takes ((message label innerType inner rest).readField type (depth + 1)) label.number
      (encodeNested label length w) (v₀, m) (some v, m) := by
  rw [encodeNested_eq label hlength]
  refine takes_of_reads (isKey_writeKey hfresh.isValid_nestedKey) ?_
  intro b
  rw [readField, if_pos (nestedKey_number label)]
  exact ((h.enterMessage (isVarint_writeVarint hsize) b).map _).mapError _

theorem takes_messages {innerType : String} {inner : Fields} {P : Nat → Prop} {length : Nat}
    {w : Bytes} {vs : List inner.Record} {v : inner.Record} (hfresh : IsFresh label rest.numbers)
    (hlength : w.length = length) (hsize : w.length < sizeLimit)
    (h : TakesAll (inner.readField innerType depth) P w inner.default v) :
    Takes ((messages label innerType inner rest).readField type (depth + 1)) label.number
      (encodeNested label length w) (vs, m) (vs ++ [v], m) := by
  rw [encodeNested_eq label hlength]
  refine takes_of_reads (isKey_writeKey hfresh.isValid_nestedKey) ?_
  intro b
  rw [readField, if_pos (nestedKey_number label)]
  exact ((h.enterMessage (isVarint_writeVarint hsize) b).map _).mapError _

theorem takesAll_entries (hfresh : IsFresh label rest.numbers) :
    ∀ {es : List (String × Bytes)} {d : Dictionary},
      (es.flatMap fun e => encodeNested label (lengthEntry e) (encodeEntry e)).length < sizeLimit →
      TakesAll ((dictionary label rest).readField type (depth + 1)) (· = label.number)
        (es.flatMap fun e => encodeNested label (lengthEntry e) (encodeEntry e))
        (d, m) (d.insertAll es, m) := by
  intro es
  induction es with
  | nil =>
    intro d _
    exact .nil
  | cons e es ih =>
    intro d hsize
    rw [List.flatMap_cons, List.length_append, length_encodeNested] at hsize
    have hown : Takes ((dictionary label rest).readField type (depth + 1)) label.number
        (encodeNested label (lengthEntry e) (encodeEntry e)) (d, m) (d.insert e.1 e.2, m) := by
      rw [encodeNested_eq label (length_encodeEntry e)]
      refine takes_of_reads (isKey_writeKey hfresh.isValid_nestedKey) ?_
      intro b
      rw [readField, if_pos (nestedKey_number label)]
      have hsizeEntry : (encodeEntry e).length < sizeLimit := by omega
      have hentry := (takesAll_encodeEntry depth hsizeEntry).enter
        (isVarint_writeVarint hsizeEntry) b
      exact (hentry.map fun e => (d.insert e.1 e.2, m)).mapError _
    exact .cons rfl hown (ih (by omega))

end Field

/-! ### Whole messages -/

/-- **Reading the bytes of a message on top of another puts it there.**  The induction is on how the
message was written.  Each case has the records of the first field, which change that field only,
and then those of the fields behind it. -/
theorem Writes.takesAll {f : Fields} {m : f.Record} {b : Bytes} (h : f.Writes m b) :
    f.IsWellFormed → ∀ {depth : Nat}, f.nesting ≤ depth → b.length < sizeLimit →
      ∀ (type : String) (m₀ : f.Record),
        TakesAll (f.readField type depth) (· ∈ f.numbers) b m₀ (f.merge m₀ m) := by
  induction h with
  | nil =>
    intro _ depth _ _ type m₀
    exact .nil
  | @scalar label kind rest m b v _ ih =>
    rintro ⟨hfresh, hwell⟩ depth hdepth hsize type ⟨v₀, m₀⟩
    rw [List.length_append] at hsize
    refine takesAll_append (.scalar label kind rest)
      (fun m => (if v = kind.zero then v₀ else v, m)) hfresh.2 rfl ?_ ?_
      (ih hwell hdepth (by omega) type m₀)
    · intro key b m hkey
      rw [readField, if_neg hkey]
    · refine takesAll_encodeUnlessZero label kind (fun v => (v, m₀))
        (hfresh.isValid_scalarKey kind) rfl (by omega) ?_
      intro b rest' hread
      rw [readField, if_pos (scalarKey_number label kind)]
      exact ((hread.mapError _).map _).mapError _
  | @scalars label kind rest m b vs _ ih =>
    rintro ⟨hfresh, hwell⟩ depth hdepth hsize type ⟨vs₀, m₀⟩
    rw [List.length_append] at hsize
    refine takesAll_append (.scalars label kind rest) (fun m => (vs₀ ++ vs, m)) hfresh.2 rfl ?_
      (takesAll_scalars hfresh vs₀ (by omega)) (ih hwell hdepth (by omega) type m₀)
    intro key b m hkey
    rw [readField, if_neg hkey]
  | @messageNone label innerType inner rest m b _ ih =>
    rintro ⟨hfresh, _, hwell⟩ depth hdepth hsize type ⟨v₀, m₀⟩
    have hnone : Option.merge inner.merge v₀ none = v₀ := by cases v₀ <;> rfl
    rw [merge, hnone]
    refine takesAll_append (.message label innerType inner rest) (w := []) (fun m => (v₀, m))
      hfresh.2 rfl ?_ .nil (ih hwell (le_trans (le_max_right _ _) hdepth) hsize type m₀)
    intro key b m hkey
    rw [readField, if_neg hkey]
  | @messageSome label innerType inner rest v m w b hv _ ihInner ih =>
    rintro ⟨hfresh, hinner, hwell⟩ depth hdepth hsize type ⟨v₀, m₀⟩
    rw [List.length_append, length_encodeNested] at hsize
    obtain ⟨hdepthInner, hdepthRest⟩ := max_le_iff.1 hdepth
    obtain ⟨depth, rfl⟩ := Nat.exists_eq_add_one.2 (Nat.zero_lt_of_lt hdepthInner)
    rw [merge, ← some_merge_getD]
    refine takesAll_append (.message label innerType inner rest)
      (fun m => (some (inner.merge (v₀.getD inner.default) v), m)) hfresh.2 rfl ?_
      (.single rfl (takes_message hfresh hv.length_eq (by omega)
        (ihInner hinner (Nat.le_of_lt_succ hdepthInner) (by omega) innerType _)))
      (ih hwell hdepthRest (by omega) type m₀)
    intro key b m hkey
    rw [readField, if_neg hkey]
  | @messagesNil label innerType inner rest m b _ ih =>
    rintro ⟨hfresh, _, hwell⟩ depth hdepth hsize type ⟨vs₀, m₀⟩
    rw [merge, List.append_nil]
    refine takesAll_append (.messages label innerType inner rest) (w := []) (fun m => (vs₀, m))
      hfresh.2 rfl ?_ .nil (ih hwell (le_trans (le_max_right _ _) hdepth) hsize type m₀)
    intro key b m hkey
    rw [readField, if_neg hkey]
  | @messagesCons label innerType inner rest v vs m w b hv _ ihInner ih =>
    rintro hwell depth hdepth hsize type ⟨vs₀, m₀⟩
    rw [List.length_append, length_encodeNested] at hsize
    obtain ⟨hdepthInner, _⟩ := max_le_iff.1 hdepth
    -- The elements behind this one belong to the same field, so here the two parts are not told
    -- apart by their numbers.
    have hbehind := ih hwell hdepth (by omega) type (vs₀ ++ [v], m₀)
    obtain ⟨depth, rfl⟩ := Nat.exists_eq_add_one.2 (Nat.zero_lt_of_lt hdepthInner)
    have hv' := ihInner hwell.2.1 (Nat.le_of_lt_succ hdepthInner) (by omega) innerType inner.default
    rw [default_merge] at hv'
    rw [merge, List.append_assoc, List.singleton_append] at hbehind
    exact .cons List.mem_cons_self (takes_messages hwell.1 hv.length_eq (by omega) hv') hbehind
  | @dictionary label rest d m b es hperm _ ih =>
    rintro ⟨hfresh, hwell⟩ depth hdepth hsize type ⟨d₀, m₀⟩
    rw [List.length_append] at hsize
    obtain ⟨hdepthEntry, hdepthRest⟩ := max_le_iff.1 hdepth
    obtain ⟨depth, rfl⟩ := Nat.exists_eq_add_one.2 hdepthEntry
    rw [merge, ← Dictionary.insertAll_perm d₀ hperm]
    refine takesAll_append (.dictionary label rest) (fun m => (d₀.insertAll es, m)) hfresh.2 rfl ?_
      (takesAll_entries hfresh (by omega)) (ih hwell hdepthRest (by omega) type m₀)
    intro key b m hkey
    rw [readField, if_neg hkey]

/-- A message is read as it was written, with the entries of its dictionaries in any order. -/
theorem Writes.decode_eq {f : Fields} {m : f.Record} {b : Bytes} (h : f.Writes m b)
    (hwell : f.IsWellFormed) (hnesting : f.nesting ≤ nestingLimit)
    (hsize : f.encodedLength m < sizeLimit) (type : String) : f.decode type b = .ok m := by
  rw [← h.length_eq] at hsize
  have hall := h.takesAll hwell hnesting hsize type f.default
  rw [default_merge] at hall
  exact hall.decode_eq

end Fields

section Message

variable {α : Type} [Message α]

theorem length_encode (m : α) : (encode m).length = encodedLength m :=
  Fields.length_encode _ (Message.toRecord m)

/-- A message of a type is read as it was written. -/
theorem decode_encode {m : α} (hsize : (encode m).length < sizeLimit) :
    decode (encode m) = .ok m := by
  rw [length_encode, encodedLength] at hsize
  have hrecord := (Fields.writes_encode _ (Message.toRecord m)).decode_eq Message.wellFormed
    Message.nesting_le hsize (Message.typeName α)
  rw [decode, encode, hrecord]
  exact congrArg Except.ok (Message.ofRecord_toRecord m)

end Message

end LedgerGateway.Wire
