import LedgerGateway.Proofs.Wire.Exact

/-!
# What a record does to a message

Reading a record of a declared field comes down to three things: an item is read, on top of what the
message gives as a base, and the result is put into the message.  A `Fields.Slot` holds these for
one number (`Fields.slot?`).  A record of any other number is passed over and leaves the message as
it was.  So everything about `Fields.readField` follows from what it does with slots
(`Fields.reads_readField_of_slot`, `Fields.reads_readField_of_none`), and no other proof has to go
through the list of fields.
-/

namespace LedgerGateway.Wire

/-! ### Items -/

@[reducible]
def Item.Value : Item → Type
  | scalar kind => kind.Carrier
  | message _ inner => inner.Record
  | entry => String × Bytes

/-- Reads an item on top of another.  For a scalar that makes no difference. -/
def Item.read : (i : Item) → (depth : Nat) → WireType → (b : Bytes) → i.Value →
    Except DecodeError (Reading i.Value b)
  | scalar kind, _, found, b, _ => (kind.read found b).mapError .ofFault
  | message type inner, depth, found, b, v => enterMessage (inner.readField type) depth found b v
  | entry, depth, _, b, e => enter readEntryField depth b e

namespace Fields

/-- Where the records of one number go. -/
structure Slot (f : Fields) where
  item : Item
  /-- What the item is read on top of. -/
  base : f.Record → item.Value
  /-- Puts the item that was read into the message. -/
  put : f.Record → item.Value → f.Record

/-- The same slot of a message with more fields. -/
def Slot.within {f rest : Fields} (s : Slot rest) (get : f.Record → rest.Record)
    (set : f.Record → rest.Record → f.Record) : Slot f where
  item := s.item
  base m := s.base (get m)
  put m v := set m (s.put (get m) v)

/-- The slot of a number, if the type of message has a field of that number. -/
def slot? : (f : Fields) → Nat → Option (Slot f)
  | nil, _ => none
  | scalar label kind rest, n =>
    if n = label.number then
      some ⟨.scalar kind, fun _ => kind.zero, fun m v => (v, m.2)⟩
    else (rest.slot? n).map (·.within Prod.snd fun m r => (m.1, r))
  | scalars label kind rest, n =>
    if n = label.number then
      some ⟨.scalar kind, fun _ => kind.zero, fun m v => (m.1 ++ [v], m.2)⟩
    else (rest.slot? n).map (·.within Prod.snd fun m r => (m.1, r))
  | message label type inner rest, n =>
    if n = label.number then
      some ⟨.message type inner, fun m => m.1.getD inner.default, fun m v => (some v, m.2)⟩
    else (rest.slot? n).map (·.within Prod.snd fun m r => (m.1, r))
  | messages label type inner rest, n =>
    if n = label.number then
      some ⟨.message type inner, fun _ => inner.default, fun m v => (m.1 ++ [v], m.2)⟩
    else (rest.slot? n).map (·.within Prod.snd fun m r => (m.1, r))
  | dictionary label rest, n =>
    if n = label.number then
      some ⟨.entry, fun _ => ("", []), fun m e => (m.1.insert e.1 e.2, m.2)⟩
    else (rest.slot? n).map (·.within Prod.snd fun m r => (m.1, r))

theorem map_item_slot? (f : Fields) (n : Nat) : (f.slot? n).map (·.item) = f.item? n := by
  induction f with
  | nil => rfl
  | scalar _ _ rest ih | scalars _ _ rest ih | message _ _ _ rest _ ih | messages _ _ _ rest _ ih
  | dictionary _ rest ih =>
    rw [slot?, item?, ← ih, apply_ite (Option.map _), Option.map_map]
    rfl

theorem slot?_eq_none_iff {f : Fields} {n : Nat} : f.slot? n = none ↔ f.item? n = none := by
  rw [← map_item_slot?, Option.map_eq_none_iff]

theorem exists_slot_of_item? {f : Fields} {n : Nat} {i : Item} (h : f.item? n = some i) :
    ∃ s, f.slot? n = some s ∧ s.item = i := by
  rwa [← map_item_slot?, Option.map_eq_some_iff] at h

theorem item?_of_slot? {f : Fields} {n : Nat} {s : Slot f} (h : f.slot? n = some s) :
    f.item? n = some s.item := by
  rw [← map_item_slot?, h]
  rfl

/-! ### Reading a record -/

section Read

variable {type : String} {depth : Nat} {key : Key} {b rest : Bytes}

/-- A record of no declared field leaves the message as it was. -/
theorem reads_readField_of_none {f : Fields} (h : f.slot? key.number = none) {m m' : f.Record} :
    Reads (f.readField type depth key b m) m' rest ↔ m' = m ∧ Reads (skip depth key b) () rest := by
  induction f with
  | nil =>
    rw [readField, reads_map_iff]
    constructor
    · rintro ⟨_, hread, rfl⟩
      exact ⟨rfl, reads_mapError_iff.1 hread⟩
    · rintro ⟨rfl, hread⟩
      exact ⟨_, reads_mapError_iff.2 hread, rfl⟩
  | scalar _ _ _ ih | scalars _ _ _ ih | message _ _ _ _ _ ih | messages _ _ _ _ _ ih
  | dictionary _ _ ih =>
    rw [slot?] at h
    split at h
    · cases h
    · rename_i hne
      obtain ⟨v, m⟩ := m
      rw [readField, if_neg hne, reads_map_iff]
      constructor
      · rintro ⟨u, hread, rfl⟩
        obtain ⟨rfl, hskip⟩ := (ih (Option.map_eq_none_iff.1 h)).1 hread
        exact ⟨rfl, hskip⟩
      · rintro ⟨rfl, hskip⟩
        exact ⟨m, (ih (Option.map_eq_none_iff.1 h)).2 ⟨rfl, hskip⟩, rfl⟩

/-- **A record of a declared field** puts an item into the message. -/
theorem reads_readField_of_slot {f : Fields} {s : Slot f} (h : f.slot? key.number = some s)
    {m m' : f.Record} : Reads (f.readField type depth key b m) m' rest ↔
      ∃ v, Reads (s.item.read depth key.wireType b (s.base m)) v rest ∧ m' = s.put m v := by
  induction f with
  | nil => cases h
  | scalar _ _ _ ih | scalars _ _ _ ih | message _ _ _ _ _ ih | messages _ _ _ _ _ ih
  | dictionary _ _ ih =>
    obtain ⟨v, m⟩ := m
    rw [slot?] at h
    split at h
    · rename_i heq
      cases h
      rw [readField, if_pos heq, reads_mapError_iff, reads_map_iff]
      rfl
    · rename_i hne
      obtain ⟨s, hs, rfl⟩ := Option.map_eq_some_iff.1 h
      rw [readField, if_neg hne, reads_map_iff]
      constructor
      · rintro ⟨u, hread, rfl⟩
        obtain ⟨v', hitem, rfl⟩ := (ih hs).1 hread
        exact ⟨v', hitem, rfl⟩
      · rintro ⟨v', hitem, rfl⟩
        exact ⟨_, (ih hs).2 ⟨v', hitem, rfl⟩, rfl⟩

end Read

end Fields

end LedgerGateway.Wire
