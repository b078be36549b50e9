import LedgerGateway.Proofs.Wire.Acceptance

/-!
# The order of records

A message is a row of records, and each of them turns the message read so far into another
(`RawRecord.Turns`).  A record of no declared field leaves it as it is.  Two records of different
fields may change places (`RawRecord.Turns.swap`), because what one reads and writes the other leaves
alone (`Slot.Apart`).  So a record may be moved to the front past all records of other numbers, and
a row is read as any other row that has the same records in each declared field, in the same order
(`RawRecord.TurnsAll.of_withNumber`).

There is one way only to take a message apart into records (`RawRecord.join_injective`), so it makes
sense to speak of the records of a message that was read.
-/

namespace LedgerGateway.Wire.Fields

variable {f : Fields} {type : String} {m m' m₁ m₂ : f.Record}

/-! ### Slots of different numbers -/

/-- What goes into one slot does not matter for the other. -/
structure Slot.Apart (s t : Slot f) : Prop where
  base_put : ∀ (m : f.Record) (v : t.item.Value), s.base (t.put m v) = s.base m
  base_put' : ∀ (m : f.Record) (v : s.item.Value), t.base (s.put m v) = t.base m
  put_put : ∀ (m : f.Record) (v : s.item.Value) (w : t.item.Value),
    s.put (t.put m w) v = t.put (s.put m v) w

theorem Slot.Apart.symm {s t : Slot f} (h : s.Apart t) : t.Apart s :=
  ⟨h.base_put', h.base_put, fun m v w => (h.put_put m w v).symm⟩

/-- Two numbers either belong to the first field and one behind it, or both to fields behind it. -/
theorem apart_of_ite {rest : Fields} {label : Label} {own s t : Slot f}
    {within : Slot rest → Slot f} {n n' : Nat} (hne : n ≠ n')
    (hs : (if n = label.number then some own else (rest.slot? n).map within) = some s)
    (ht : (if n' = label.number then some own else (rest.slot? n').map within) = some t)
    (hown : ∀ u, own.Apart (within u))
    (hwithin : ∀ {u w}, rest.slot? n = some u → rest.slot? n' = some w →
      (within u).Apart (within w)) : s.Apart t := by
  split at hs
  · rename_i heq
    cases hs
    rw [if_neg fun heq' => hne (heq.trans heq'.symm)] at ht
    obtain ⟨u, _, rfl⟩ := Option.map_eq_some_iff.1 ht
    exact hown u
  · obtain ⟨u, hu, rfl⟩ := Option.map_eq_some_iff.1 hs
    split at ht
    · cases ht
      exact (hown u).symm
    · obtain ⟨w, hw, rfl⟩ := Option.map_eq_some_iff.1 ht
      exact hwithin hu hw

/-- **Fields of different numbers are apart.** -/
theorem apart_of_slot? {n n' : Nat} (hne : n ≠ n') {s t : Slot f} (hs : f.slot? n = some s)
    (ht : f.slot? n' = some t) : s.Apart t := by
  induction f with
  | nil => cases hs
  | scalar _ _ _ ih | scalars _ _ _ ih | message _ _ _ _ _ ih | messages _ _ _ _ _ ih
  | dictionary _ _ ih =>
    refine apart_of_ite hne hs ht ?_ ?_
    · exact fun u => ⟨fun _ _ => rfl, fun _ _ => rfl, fun _ _ _ => rfl⟩
    · intro u w hu hw
      have h := ih hu hw
      exact ⟨fun m => h.base_put m.2, fun m => h.base_put' m.2,
        fun m v v' => congrArg (Prod.mk m.1) (h.put_put m.2 v v')⟩

theorem slot?_eq_none_of_not_mem {n : Nat} (h : n ∉ f.numbers) : f.slot? n = none := by
  induction f with
  | nil => rfl
  | scalar _ _ _ ih | scalars _ _ _ ih | message _ _ _ _ _ ih | messages _ _ _ _ _ ih
  | dictionary _ _ ih =>
    obtain ⟨hne, hrest⟩ := not_or.1 fun hmem => h (List.mem_cons.2 hmem)
    rw [slot?, if_neg hne, ih hrest]
    rfl

/-! ### Records -/

/-- A complete record of a message: a key, as it is written, and a value for it. -/
@[ext]
structure RawRecord (f : Fields) where
  key : Key
  front : Bytes
  value : Bytes
  isKey : IsKey front key
  isValue : f.IsValue false nestingLimit key value

namespace RawRecord

variable {r r' : f.RawRecord} {rs rs' front back : List f.RawRecord}

def number (r : f.RawRecord) : Nat := r.key.number

def bytes (r : f.RawRecord) : Bytes := r.front ++ r.value

def join (rs : List f.RawRecord) : Bytes := rs.flatMap bytes

/-- The records of a field, in the order in which they come. -/
def withNumber (n : Nat) (rs : List f.RawRecord) : List f.RawRecord :=
  rs.filter (·.number = n)

@[simp]
theorem join_cons (r : f.RawRecord) (rs : List f.RawRecord) : join (r :: rs) = r.bytes ++ join rs :=
  List.flatMap_cons

theorem join_ne_nil (r : f.RawRecord) (rs : List f.RawRecord) : join (r :: rs) ≠ [] := by
  rw [join_cons, bytes, List.append_assoc]
  exact List.append_ne_nil_of_left_ne_nil r.isKey.varint.digits.ne_nil _

theorem withNumber_cons_of_eq {n : Nat} (h : r.number = n) (rs : List f.RawRecord) :
    withNumber n (r :: rs) = r :: withNumber n rs :=
  List.filter_cons_of_pos (by simpa using h)

theorem withNumber_cons_of_ne {n : Nat} (h : r.number ≠ n) (rs : List f.RawRecord) :
    withNumber n (r :: rs) = withNumber n rs :=
  List.filter_cons_of_neg (by simpa using h)

theorem withNumber_append (n : Nat) (front back : List f.RawRecord) :
    withNumber n (front ++ back) = withNumber n front ++ withNumber n back :=
  List.filter_append ..

/-- A row is a row of records in one way only. -/
theorem join_injective : ∀ {rs rs' : List f.RawRecord}, join rs = join rs' → rs = rs' := by
  intro rs
  induction rs with
  | nil =>
    intro rs' h
    cases rs' with
    | nil => rfl
    | cons r' rs' => exact absurd h.symm (join_ne_nil r' rs')
  | cons r rs ih =>
    intro rs' h
    cases rs' with
    | nil => exact absurd h (join_ne_nil r rs)
    | cons r' rs' =>
      -- Readers take off what the grammar says, so both rows begin with the same key and value.
      rw [join_cons, join_cons, bytes, bytes, List.append_assoc, List.append_assoc] at h
      have hread := readKey_exact.reads r.isKey (r.value ++ join rs)
      rw [h] at hread
      obtain ⟨hkey, hbehind⟩ :=
        hread.unique (readKey_exact.reads r'.isKey (r'.value ++ join rs'))
      rw [hbehind] at h
      have hfront := List.append_cancel_right h
      obtain ⟨m, hm⟩ := r.isValue.reads "" f.default
      obtain ⟨m', hm'⟩ := r'.isValue.reads "" f.default
      have hvalue := hm (join rs)
      rw [hkey, hbehind] at hvalue
      obtain ⟨-, hrest⟩ := hvalue.unique (hm' (join rs'))
      rw [hrest] at hbehind
      rw [ih hrest, RawRecord.ext hkey hfront (List.append_cancel_right hbehind)]

/-- Every row of complete records can be taken apart. -/
theorem exists_join : ∀ {f : Fields} {depth : Nat} {b : Bytes}, f.IsRow false depth b →
    depth = nestingLimit → ∃ rs : List f.RawRecord, b = join rs
  | _, _, _, .nil, _ => ⟨[], rfl⟩
  | _, _, _, .cons (w := w) (v := v) hkey hv hb, h => by
    obtain ⟨rs, rfl⟩ := exists_join hb h
    exact ⟨⟨_, w, v, hkey, h ▸ hv⟩ :: rs, by rw [join_cons, bytes, List.append_assoc]⟩

/-! ### What a record does -/

/-- Reading the record on top of the first message gives the second. -/
def Turns (type : String) (r : f.RawRecord) (m m' : f.Record) : Prop :=
  ∀ rest, Reads (f.readField type nestingLimit r.key (r.value ++ rest) m) m' rest

theorem exists_turns (type : String) (r : f.RawRecord) (m : f.Record) : ∃ m', r.Turns type m m' :=
  r.isValue.reads type m

theorem Turns.takes (h : r.Turns type m m') :
    Takes (f.readField type nestingLimit) r.number r.bytes m m' :=
  takes_of_reads r.isKey h

theorem Turns.eq_of_undeclared (h : r.Turns type m m') (hnone : f.slot? r.number = none) :
    m' = m :=
  ((reads_readField_of_none hnone).1 (h [])).1

theorem turns_of_undeclared (type : String) (hnone : f.slot? r.number = none) (m : f.Record) :
    r.Turns type m m := by
  obtain ⟨m', h⟩ := r.exists_turns type m
  have heq := h.eq_of_undeclared hnone
  rwa [heq] at h

/-- **Records of different fields may change places.** -/
theorem Turns.swap (hne : r.number ≠ r'.number) (h : r.Turns type m m₁)
    (h' : r'.Turns type m₁ m₂) : ∃ m₁', r'.Turns type m m₁' ∧ r.Turns type m₁' m₂ := by
  cases hs : f.slot? r.number with
  | none =>
    obtain rfl := h.eq_of_undeclared hs
    exact ⟨m₂, h', turns_of_undeclared type hs m₂⟩
  | some s =>
    cases ht : f.slot? r'.number with
    | none =>
      obtain rfl := h'.eq_of_undeclared ht
      exact ⟨m, turns_of_undeclared type ht m, h⟩
    | some t =>
      have hapart := apart_of_slot? hne hs ht
      obtain ⟨m₁', h₁'⟩ := r'.exists_turns type m
      refine ⟨m₁', h₁', fun rest => ?_⟩
      -- The second record gives the same item before and behind the first.
      obtain ⟨w, hw, rfl⟩ := (reads_readField_of_slot ht).1 (h₁' [])
      obtain ⟨w', hw', rfl⟩ := (reads_readField_of_slot ht).1 (h' [])
      obtain ⟨v, hv, rfl⟩ := (reads_readField_of_slot hs).1 (h rest)
      rw [hapart.base_put'] at hw'
      obtain ⟨rfl, -⟩ := hw.unique hw'
      refine (reads_readField_of_slot hs).2 ⟨v, ?_, (hapart.put_put m v w).symm⟩
      rwa [hapart.base_put]

/-! ### What a row does -/

/-- Reading the records one after the other takes the first message to the second. -/
inductive TurnsAll (type : String) : List f.RawRecord → f.Record → f.Record → Prop
  | nil {m : f.Record} : TurnsAll type [] m m
  | cons {r : f.RawRecord} {rs : List f.RawRecord} {m m' m'' : f.Record} : r.Turns type m m' →
      TurnsAll type rs m' m'' → TurnsAll type (r :: rs) m m''

theorem exists_turnsAll (type : String) : ∀ (rs : List f.RawRecord) (m : f.Record),
    ∃ m', TurnsAll type rs m m' := by
  intro rs
  induction rs with
  | nil => exact fun m => ⟨m, .nil⟩
  | cons r rs ih =>
    intro m
    obtain ⟨m', h⟩ := r.exists_turns type m
    obtain ⟨m'', hall⟩ := ih m'
    exact ⟨m'', .cons h hall⟩

theorem TurnsAll.takesAll (h : TurnsAll type rs m m') :
    TakesAll (f.readField type nestingLimit) (fun _ => True) (join rs) m m' := by
  induction h with
  | nil => exact .nil
  | cons hr _ ih =>
    rw [join_cons]
    exact .cons trivial hr.takes ih

theorem TurnsAll.eq_of_undeclared (h : TurnsAll type rs m m')
    (hnone : ∀ r ∈ rs, f.slot? r.number = none) : m' = m := by
  induction h with
  | nil => rfl
  | cons hr _ ih =>
    rw [ih fun r hmem => hnone r (List.mem_cons_of_mem _ hmem)]
    exact hr.eq_of_undeclared (hnone _ List.mem_cons_self)

/-- A record may be moved to the front, past records of other fields. -/
theorem TurnsAll.move (h : TurnsAll type (front ++ r :: back) m m')
    (hne : ∀ a ∈ front, a.number ≠ r.number) :
    ∃ m₁, r.Turns type m m₁ ∧ TurnsAll type (front ++ back) m₁ m' := by
  induction front generalizing m with
  | nil =>
    cases h with
    | cons hr hall => exact ⟨_, hr, hall⟩
  | cons a front ih =>
    cases h with
    | cons ha hall =>
      obtain ⟨m₂, hr, hall⟩ := ih hall fun b hb => hne b (List.mem_cons_of_mem _ hb)
      obtain ⟨m₁, hr', ha'⟩ := ha.swap (hne a List.mem_cons_self) hr
      exact ⟨m₁, hr', .cons ha' hall⟩

/-- **Only the order within each declared field counts.**  The induction is on the second row: its
first record is the first of its number in the other row, too, where it is moved to the front. -/
theorem TurnsAll.of_withNumber (h : TurnsAll type rs m m')
    (hsame : ∀ n ∈ f.numbers, withNumber n rs' = withNumber n rs) : TurnsAll type rs' m m' := by
  induction rs' generalizing rs m with
  | nil =>
    have hundeclared : ∀ r ∈ rs, f.slot? r.number = none := by
      intro r hr
      refine slot?_eq_none_of_not_mem fun hmem => ?_
      have hfilter : r ∈ withNumber r.number rs := List.mem_filter.2 ⟨hr, by simp⟩
      rw [← hsame r.number hmem] at hfilter
      cases hfilter
    rw [h.eq_of_undeclared hundeclared]
    exact .nil
  | cons r rs' ih =>
    by_cases hmem : r.number ∈ f.numbers
    · have hfirst := hsame r.number hmem
      rw [withNumber_cons_of_eq rfl] at hfirst
      obtain ⟨front, back, rfl, hfront, -, hback⟩ := List.filter_eq_cons_iff.1 hfirst.symm
      have hne : ∀ a ∈ front, a.number ≠ r.number := fun a ha => by simpa using hfront a ha
      obtain ⟨m₁, hr, hall⟩ := h.move hne
      refine .cons hr (ih hall fun n hn => ?_)
      rw [withNumber_append]
      by_cases heq : r.number = n
      · have hnil : withNumber n front = [] :=
          List.filter_eq_nil_iff.2 fun a ha => by simpa [heq] using hne a ha
        rw [hnil, List.nil_append, ← heq]
        exact hback.symm
      · have hn' := hsame n hn
        rwa [withNumber_append, withNumber_cons_of_ne heq, withNumber_cons_of_ne heq] at hn'
    · have hnone := slot?_eq_none_of_not_mem hmem
      refine .cons (turns_of_undeclared type hnone m) (ih h fun n hn => ?_)
      rw [← hsame n hn, withNumber_cons_of_ne fun heq => hmem (heq ▸ hn)]

/-- Rows with the same records in each declared field are read as the same message. -/
theorem exists_decode_join (type : String)
    (hsame : ∀ n ∈ f.numbers, withNumber n rs' = withNumber n rs) :
    ∃ m, f.decode type (join rs) = .ok m ∧ f.decode type (join rs') = .ok m := by
  obtain ⟨m, h⟩ := exists_turnsAll type rs f.default
  exact ⟨m, h.takesAll.decode_eq, (h.of_withNumber hsame).takesAll.decode_eq⟩

end RawRecord

end LedgerGateway.Wire.Fields
