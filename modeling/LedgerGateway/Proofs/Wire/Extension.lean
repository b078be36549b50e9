import LedgerGateway.Proofs.Wire.Acceptance
import Mathlib.Data.List.Forall2

/-!
# Records of no declared field

A type of message says nothing about most numbers, and newer writers use more of them.
`Fields.Extends` says that bytes become others when records of such numbers (`Fields.IsForeign`) are
put in, anywhere between the records of a message, of the messages inside it and of the entries of
its dictionaries.  The lengths around them are adjusted.

Some fields hold the bytes of a message that is read later, on its own.  Which fields these are is
said by `Layers`, and records may be put into the messages there, too.  Then the two messages that
are read are no longer equal, but they are alike (`Fields.Alike`): they differ at most in such
bytes, which extend each other.  Without layers that is the same (`Fields.eq_of_alike_nil`).

Reading keeps messages alike (`Fields.Extends.takesAll`), by recursion on how one row extends the
other.  What a record does to a message is what its slot does, so it is enough that slots do
(`Fields.keepsAlike_of_slot?`).
-/

namespace LedgerGateway.Wire

/-- The fields that hold the bytes of another message: the fields of the type and the number of the
field, and the fields of the type inside. -/
abbrev Layers := List ((Fields × Nat) × Fields)

namespace Fields

/-! ### Putting records in -/

/-- The bytes are a complete record of a number that the type of message does not declare. -/
def IsForeign (f : Fields) (depth : Nat) (r : Bytes) : Prop :=
  ∃ key w v, r = w ++ v ∧ IsKey w key ∧ f.item? key.number = none ∧ IsSkipped depth key v

mutual

/-- The bytes are values for the same key, and the second are the first with records put into the
message that they are, if any. -/
inductive ExtendsValue :
    (layers : Layers) → (f : Fields) → (depth : Nat) → Key → Bytes → Bytes → Prop
  | scalar {layers : Layers} {f : Fields} {depth : Nat} {key : Key} {kind : Scalar} {w : Bytes}
      {v : kind.Carrier} : f.item? key.number = some (.scalar kind) →
      key.wireType = kind.wireType → kind.Denotes w v → ExtendsValue layers f depth key w w
  | layer {layers : Layers} {f inner : Fields} {depth : Nat} {key : Key}
      {w w' content content' : Bytes} : f.item? key.number = some (.scalar .bytes) →
      key.wireType = .lengthDelimited → layers.lookup (f, key.number) = some inner →
      IsSized w content → IsSized w' content' →
      Extends layers inner nestingLimit content content' → ExtendsValue layers f depth key w w'
  | message {layers : Layers} {f inner : Fields} {depth : Nat} {key : Key} {type : String}
      {l l' content content' : Bytes} : f.item? key.number = some (.message type inner) →
      key.wireType = .lengthDelimited → IsVarint l content.length →
      IsVarint l' content'.length → Extends layers inner depth content content' →
      ExtendsValue layers f (depth + 1) key (l ++ content) (l' ++ content')
  | entry {layers : Layers} {f : Fields} {depth : Nat} {key : Key} {l l' content content' : Bytes} :
      f.item? key.number = some .entry → IsVarint l content.length →
      IsVarint l' content'.length → Extends [] entryFields depth content content' →
      ExtendsValue layers f (depth + 1) key (l ++ content) (l' ++ content')
  | unknown {layers : Layers} {f : Fields} {depth : Nat} {key : Key} {w : Bytes} :
      f.item? key.number = none → IsSkipped depth key w → ExtendsValue layers f depth key w w

/-- The second bytes are the first, a message with these fields, with records of no declared field
put in. -/
inductive Extends : (layers : Layers) → (f : Fields) → (depth : Nat) → Bytes → Bytes → Prop
  | nil {layers : Layers} {f : Fields} {depth : Nat} : Extends layers f depth [] []
  | inserted {layers : Layers} {f : Fields} {depth : Nat} {r b b' : Bytes} :
      f.IsForeign depth r → Extends layers f depth b b' → Extends layers f depth b (r ++ b')
  | record {layers : Layers} {f : Fields} {depth : Nat} {key : Key} {w v v' b b' : Bytes} :
      IsKey w key → ExtendsValue layers f depth key v v' → Extends layers f depth b b' →
      Extends layers f depth (w ++ (v ++ b)) (w ++ (v' ++ b'))

end

mutual

theorem IsValue.extendsValue {strict : Bool} : ∀ {f : Fields} {depth : Nat} {key : Key} {w : Bytes},
    f.IsValue strict depth key w → ∀ layers : Layers, ExtendsValue layers f depth key w w
  | _, _, _, _, .scalar hitem hfound hw, _ => .scalar hitem hfound hw
  | _, _, _, _, .message hitem hfound hl hrow, layers =>
    .message hitem hfound hl hl (hrow.extends layers)
  | _, _, _, _, .entry hitem _ hl hrow, _ => .entry hitem hl hl (hrow.extends [])
  | _, _, _, _, .unknown hitem hw, _ => .unknown hitem hw

theorem IsRow.extends {strict : Bool} : ∀ {f : Fields} {depth : Nat} {b : Bytes},
    f.IsRow strict depth b → ∀ layers : Layers, Extends layers f depth b b
  | _, _, _, .nil, _ => .nil
  | _, _, _, .cons hkey hv hb, layers => .record hkey (hv.extendsValue layers) (hb.extends layers)

end

theorem Extends.append : ∀ {layers : Layers} {f : Fields} {depth : Nat} {a a' b b' : Bytes},
    Extends layers f depth a a' → Extends layers f depth b b' →
      Extends layers f depth (a ++ b) (a' ++ b')
  | _, _, _, _, _, _, _, .nil, hb => hb
  | _, _, _, _, _, _, _, .inserted hr ha, hb => by
    rw [List.append_assoc]
    exact .inserted hr (ha.append hb)
  | _, _, _, _, _, _, _, .record hkey hv ha, hb => by
    simp only [List.append_assoc]
    exact .record hkey hv (ha.append hb)

/-- A record can be put in between any two records. -/
theorem extends_insert {strict : Bool} {f : Fields} {depth : Nat} {a r b : Bytes}
    (ha : f.IsRow strict depth a) (hr : f.IsForeign depth r) (hb : f.IsRow strict depth b)
    (layers : Layers) : Extends layers f depth (a ++ b) (a ++ (r ++ b)) :=
  (ha.extends layers).append (.inserted hr (hb.extends layers))

/-! ### Messages that are alike -/

/-- The scalars of a field are equal, or both are bytes of a message and the second extend the
first. -/
def AlikeScalar (layers : Layers) (f : Fields) (number : Nat) :
    (kind : Scalar) → kind.Carrier → kind.Carrier → Prop
  | .bytes, v, v' => v = v' ∨
    ∃ inner, layers.lookup (f, number) = some inner ∧ Extends layers inner nestingLimit v v'
  | .int32, v, v' => v = v'
  | .int64, v, v' => v = v'
  | .uint64, v, v' => v = v'
  | .bool, v, v' => v = v'
  | .string, v, v' => v = v'

/-- The messages differ at most in bytes of messages.  The fields are the last ones of a type of
message, all of which are `whole`. -/
def Alike (layers : Layers) : (f whole : Fields) → f.Record → f.Record → Prop
  | nil, _, _, _ => True
  | scalar label kind rest, whole, (v, m), (v', m') =>
    AlikeScalar layers whole label.number kind v v' ∧ rest.Alike layers whole m m'
  | scalars label kind rest, whole, (vs, m), (vs', m') =>
    List.Forall₂ (AlikeScalar layers whole label.number kind) vs vs' ∧ rest.Alike layers whole m m'
  | message _ _ inner rest, whole, (v, m), (v', m') =>
    Option.Rel (inner.Alike layers inner) v v' ∧ rest.Alike layers whole m m'
  | messages _ _ inner rest, whole, (vs, m), (vs', m') =>
    List.Forall₂ (inner.Alike layers inner) vs vs' ∧ rest.Alike layers whole m m'
  | dictionary _ rest, whole, (d, m), (d', m') => d = d' ∧ rest.Alike layers whole m m'

/-- The items of a record are alike. -/
def AlikeItem (layers : Layers) (whole : Fields) (number : Nat) :
    (i : Item) → i.Value → i.Value → Prop
  | .scalar kind, v, v' => AlikeScalar layers whole number kind v v'
  | .message _ inner, v, v' => inner.Alike layers inner v v'
  | .entry, e, e' => e = e'

section Alike

variable {layers : Layers} {whole : Fields} {number : Nat}

theorem alikeScalar_refl : ∀ (kind : Scalar) (v : kind.Carrier),
    AlikeScalar layers whole number kind v v
  | .bytes, _ => .inl rfl
  | .int32, _ => rfl
  | .int64, _ => rfl
  | .uint64, _ => rfl
  | .bool, _ => rfl
  | .string, _ => rfl

theorem alike_refl : ∀ (f : Fields) {whole : Fields} (m : f.Record), f.Alike layers whole m m
  | nil, _, _ => trivial
  | scalar _ kind rest, _, (v, m) => ⟨alikeScalar_refl kind v, rest.alike_refl m⟩
  | scalars _ kind rest, _, (_, m) =>
    ⟨List.forall₂_same.2 fun v _ => alikeScalar_refl kind v, rest.alike_refl m⟩
  | message _ _ _ rest, _, (none, m) => ⟨.none, rest.alike_refl m⟩
  | message _ _ inner rest, _, (some v, m) => ⟨.some (inner.alike_refl v), rest.alike_refl m⟩
  | messages _ _ inner rest, _, (_, m) =>
    ⟨List.forall₂_same.2 fun v _ => inner.alike_refl v, rest.alike_refl m⟩
  | dictionary _ rest, _, (_, m) => ⟨rfl, rest.alike_refl m⟩

theorem eq_of_alikeScalar {kind : Scalar} {v v' : kind.Carrier}
    (hlayer : layers.lookup (whole, number) = none)
    (h : AlikeScalar layers whole number kind v v') : v = v' := by
  cases kind with
  | bytes =>
    obtain h | ⟨inner, hinner, _⟩ := h
    · exact h
    · cases hlayer.symm.trans hinner
  | int32 | int64 | uint64 | bool | string => exact h

theorem eq_of_forall₂ {α : Type} {R : α → α → Prop} (hR : ∀ {x y}, R x y → x = y) {l l' : List α}
    (h : List.Forall₂ R l l') : l = l' := by
  have heq : List.Forall₂ (· = ·) l l' := h.imp fun _ _ => hR
  rwa [List.forall₂_eq_eq_eq] at heq

/-- Where there are no layers, messages that are alike are equal. -/
theorem eq_of_alike_nil : ∀ (f : Fields) {whole : Fields} {m m' : f.Record},
    f.Alike [] whole m m' → m = m'
  | nil, _, _, _, _ => rfl
  | scalar _ _ rest, _, (_, _), (_, _), ⟨hv, h⟩ =>
    congrArg₂ Prod.mk (eq_of_alikeScalar rfl hv) (rest.eq_of_alike_nil h)
  | scalars _ _ rest, _, (_, _), (_, _), ⟨hvs, h⟩ =>
    congrArg₂ Prod.mk (eq_of_forall₂ (eq_of_alikeScalar rfl) hvs) (rest.eq_of_alike_nil h)
  | message _ _ _ rest, _, (_, _), (_, _), ⟨.none, h⟩ =>
    congrArg₂ Prod.mk rfl (rest.eq_of_alike_nil h)
  | message _ _ inner rest, _, (_, _), (_, _), ⟨.some hv, h⟩ =>
    congrArg₂ Prod.mk (congrArg some (inner.eq_of_alike_nil hv)) (rest.eq_of_alike_nil h)
  | messages _ _ inner rest, _, (_, _), (_, _), ⟨hvs, h⟩ =>
    congrArg₂ Prod.mk (eq_of_forall₂ inner.eq_of_alike_nil hvs) (rest.eq_of_alike_nil h)
  | dictionary _ rest, _, (_, _), (_, _), ⟨hd, h⟩ =>
    congrArg₂ Prod.mk hd (rest.eq_of_alike_nil h)

/-! ### Slots -/

/-- The slot gives and takes items that are alike for messages that are alike. -/
structure KeepsAlike (layers : Layers) (whole : Fields) (number : Nat) {f : Fields} (s : Slot f) :
    Prop where
  base : ∀ {m m' : f.Record}, f.Alike layers whole m m' →
    AlikeItem layers whole number s.item (s.base m) (s.base m')
  put : ∀ {m m' : f.Record} {v v' : s.item.Value}, f.Alike layers whole m m' →
    AlikeItem layers whole number s.item v v' → f.Alike layers whole (s.put m v) (s.put m' v')

theorem keepsAlike_of_ite {f rest : Fields} {label : Label} {own : Slot f}
    {within : Slot rest → Slot f} {s : Slot f}
    (h : (if number = label.number then some own else (rest.slot? number).map within) = some s)
    (hown : KeepsAlike layers whole label.number own)
    (hwithin : ∀ {s : Slot rest}, KeepsAlike layers whole number s →
      KeepsAlike layers whole number (within s))
    (hrest : ∀ {s : Slot rest}, rest.slot? number = some s → KeepsAlike layers whole number s) :
    KeepsAlike layers whole number s := by
  split at h
  · rename_i heq
    cases h
    exact heq ▸ hown
  · obtain ⟨s, hs, rfl⟩ := Option.map_eq_some_iff.1 h
    exact hwithin (hrest hs)

/-- **Every slot keeps messages alike.** -/
theorem keepsAlike_of_slot? : ∀ {f whole : Fields} {s : Slot f}, f.slot? number = some s →
    KeepsAlike layers whole number s := by
  intro f
  induction f with
  | nil => nofun
  | scalar label kind rest ih =>
    intro whole s h
    refine keepsAlike_of_ite h ?_ ?_ ih
    · exact ⟨fun _ => alikeScalar_refl kind _, fun h hv => ⟨hv, h.2⟩⟩
    · exact fun hs => ⟨fun h => hs.base h.2, fun h hv => ⟨h.1, hs.put h.2 hv⟩⟩
  | scalars label kind rest ih =>
    intro whole s h
    refine keepsAlike_of_ite h ?_ ?_ ih
    · exact ⟨fun _ => alikeScalar_refl kind _,
        fun h hv => ⟨List.rel_append h.1 (.cons hv .nil), h.2⟩⟩
    · exact fun hs => ⟨fun h => hs.base h.2, fun h hv => ⟨h.1, hs.put h.2 hv⟩⟩
  | message label type inner rest _ ih =>
    intro whole s h
    refine keepsAlike_of_ite h ⟨?_, fun h hv => ⟨.some hv, h.2⟩⟩ ?_ ih
    · -- Where nothing is there, both are read on top of the message without content.
      rintro ⟨v, m⟩ ⟨v', m'⟩ ⟨hv, _⟩
      cases hv with
      | none => exact inner.alike_refl _
      | some hv => exact hv
    · exact fun hs => ⟨fun h => hs.base h.2, fun h hv => ⟨h.1, hs.put h.2 hv⟩⟩
  | messages label type inner rest _ ih =>
    intro whole s h
    refine keepsAlike_of_ite h ?_ ?_ ih
    · exact ⟨fun _ => inner.alike_refl _,
        fun h hv => ⟨List.rel_append h.1 (.cons hv .nil), h.2⟩⟩
    · exact fun hs => ⟨fun h => hs.base h.2, fun h hv => ⟨h.1, hs.put h.2 hv⟩⟩
  | dictionary label rest ih =>
    intro whole s h
    refine keepsAlike_of_ite h ⟨fun _ => rfl, ?_⟩ ?_ ih
    · rintro m m' e _ h rfl
      exact ⟨congrArg (Dictionary.insert · e.1 e.2) h.1, h.2⟩
    · exact fun hs => ⟨fun h => hs.base h.2, fun h hv => ⟨h.1, hs.put h.2 hv⟩⟩

end Alike

/-! ### Reading -/

mutual

theorem ExtendsValue.reads : ∀ {layers : Layers} {f : Fields} {depth : Nat} {key : Key}
    {w w' : Bytes}, ExtendsValue layers f depth key w w' → ∀ (type : String) {m m' : f.Record},
      f.Alike layers f m m' → ∃ n n',
        (∀ rest, Reads (f.readField type depth key (w ++ rest) m) n rest) ∧
        (∀ rest, Reads (f.readField type depth key (w' ++ rest) m') n' rest) ∧
        f.Alike layers f n n'
  | _, _, _, _, _, _, .scalar hitem hfound hw, _, _, _, h => by
    obtain ⟨⟨_, base, put⟩, hslot, rfl⟩ := exists_slot_of_item? hitem
    exact ⟨_, _, reads_scalar hslot hfound hw, reads_scalar hslot hfound hw,
      (keepsAlike_of_slot? hslot).put h (alikeScalar_refl _ _)⟩
  | _, _, _, _, _, _, .layer hitem hfound hlayer hw hw' hinner, _, _, _, h => by
    obtain ⟨⟨_, base, put⟩, hslot, rfl⟩ := exists_slot_of_item? hitem
    exact ⟨_, _, reads_scalar hslot hfound hw, reads_scalar hslot hfound hw',
      (keepsAlike_of_slot? hslot).put h (.inr ⟨_, hlayer, hinner⟩)⟩
  | _, _, _, _, _, _, .message hitem hfound hl hl' hinner, _, _, _, h => by
    obtain ⟨⟨_, base, put⟩, hslot, rfl⟩ := exists_slot_of_item? hitem
    obtain ⟨v, v', hall, hall', hv⟩ := hinner.takesAll _ ((keepsAlike_of_slot? hslot).base h)
    exact ⟨_, _, reads_message hslot hfound hl hall, reads_message hslot hfound hl' hall',
      (keepsAlike_of_slot? hslot).put h hv⟩
  | _, _, _, _, _, _, .entry hitem hl hl' hinner, type, m, _, h => by
    obtain ⟨⟨_, base, put⟩, hslot, rfl⟩ := exists_slot_of_item? hitem
    -- Dictionaries that are alike are equal, so no layer may be inside an entry.
    obtain ⟨r₀, hr₀⟩ := exists_entryOf (base m)
    have hr₀' := ((keepsAlike_of_slot? hslot).base h).symm.trans hr₀
    obtain ⟨r, r', hall, hall', hr⟩ := hinner.takesAll type (alike_refl entryFields r₀)
    exact ⟨_, _, reads_entry hslot hr₀ hl hall, reads_entry hslot hr₀' hl' hall',
      (keepsAlike_of_slot? hslot).put h (congrArg entryOf (eq_of_alike_nil _ hr))⟩
  | _, _, _, _, _, _, .unknown hitem hw, _, m, m', h =>
    ⟨m, m', reads_unknown hitem hw, reads_unknown hitem hw, h⟩

/-- **Reading keeps messages alike** when records are put in. -/
theorem Extends.takesAll : ∀ {layers : Layers} {f : Fields} {depth : Nat} {b b' : Bytes},
    Extends layers f depth b b' → ∀ (type : String) {m m' : f.Record}, f.Alike layers f m m' →
      ∃ n n', TakesAll (f.readField type depth) (fun _ => True) b m n ∧
        TakesAll (f.readField type depth) (fun _ => True) b' m' n' ∧ f.Alike layers f n n'
  | _, _, _, _, _, .nil, _, m, m', h => ⟨m, m', .nil, .nil, h⟩
  | _, _, _, _, _, .inserted hforeign hb, type, m, m', h => by
    obtain ⟨key, w, v, rfl, hkey, hitem, hv⟩ := hforeign
    obtain ⟨n, n', hall, hall', hn⟩ := hb.takesAll type h
    exact ⟨n, n', hall, .cons trivial (takes_of_reads hkey (reads_unknown hitem hv)) hall', hn⟩
  | _, _, _, _, _, .record hkey hv hb, type, m, m', h => by
    obtain ⟨n, n', hread, hread', hn⟩ := hv.reads type h
    obtain ⟨p, p', hall, hall', hp⟩ := hb.takesAll type hn
    refine ⟨p, p', ?_, ?_, hp⟩
    · rw [← List.append_assoc]
      exact .cons trivial (takes_of_reads hkey hread) hall
    · rw [← List.append_assoc]
      exact .cons trivial (takes_of_reads hkey hread') hall'

end

theorem Extends.exists_decode {layers : Layers} {f : Fields} {b b' : Bytes}
    (h : Extends layers f nestingLimit b b') (type : String) :
    ∃ m m', f.decode type b = .ok m ∧ f.decode type b' = .ok m' ∧ f.Alike layers f m m' := by
  obtain ⟨m, m', hall, hall', hm⟩ := h.takesAll type (alike_refl f f.default)
  exact ⟨m, m', hall.decode_eq, hall'.decode_eq, hm⟩

end Fields

end LedgerGateway.Wire
