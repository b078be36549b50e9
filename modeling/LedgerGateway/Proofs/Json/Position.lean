import LedgerGateway.Json.Scan
import LedgerGateway.Proofs.Json.Value
import Mathlib.Data.List.Basic

/-!
# Places in a JSON text

A JSON text may be cut at any place into what is before it and what is behind it.  The tree of the
value tells what the place is like: which arrays and objects are open there, and whether it is
inside a text (`Position`, `Position.Between`).  A container is open from its opening bracket to its
closing one.  Those with something in them are counted apart from an empty one, inside which there
is nothing but white space.

For the definition the text is taken apart from the outside.  `Around` says what may stand on both
sides of one value, or of the name of one member, so that all of it together is a JSON text, and
inside which containers this value or name is.  A place is then in front of a value or name, behind
it, or within it.

Every place of every JSON text is of one of these kinds (`Value.Spaced.exists_between`).
-/

namespace LedgerGateway.Json

def Container.opening : Container → UInt8
  | .array => 0x5B
  | .object => 0x7B

def Container.closing : Container → UInt8
  | .array => 0x5D
  | .object => 0x7D

/-! ### Rows -/

/-- The items of an array or the members of an object, of which there is at least one. -/
inductive Row : Container → Bytes → Prop where
  | items {items : List Value} {b : Bytes} : ItemsWritten items b → Row .array b
  | members {members : List (TextLiteral × Value)} {b : Bytes} : MembersWritten members b →
      Row .object b

/-- What stands in a container in front of an item or member. -/
inductive RowBefore (k : Container) : Bytes → Prop where
  | none : RowBefore k []
  | some {b : Bytes} : Row k b → RowBefore k (b ++ [0x2C])

/-- What stands in a container behind an item or member. -/
inductive RowBehind (k : Container) : Bytes → Prop where
  | none : RowBehind k []
  | some {b : Bytes} : Row k b → RowBehind k (0x2C :: b)

/-- Two rows of items with a comma between them are one. -/
theorem ItemsWritten.append {items items' : List Value} {b c : Bytes} (h : ItemsWritten items b)
    (h' : ItemsWritten items' c) : ItemsWritten (items ++ items') (b ++ 0x2C :: c) := by
  induction items generalizing b with
  | nil => cases h
  | cons v items ih =>
    cases h with
    | last hv => exact .more hv h'
    | more hv hitems =>
      rw [List.append_assoc, List.cons_append]
      exact .more hv (ih hitems)

/-- Two rows of members with a comma between them are one. -/
theorem MembersWritten.append {members members' : List (TextLiteral × Value)} {b c : Bytes}
    (h : MembersWritten members b) (h' : MembersWritten members' c) :
    MembersWritten (members ++ members') (b ++ 0x2C :: c) := by
  induction members generalizing b with
  | nil => cases h
  | cons m members ih =>
    cases h with
    | last hs ht hv =>
      simp only [List.append_assoc, List.cons_append]
      exact .more hs ht hv h'
    | more hs ht hv hmembers =>
      simp only [List.append_assoc, List.cons_append]
      exact .more hs ht hv (ih hmembers)

theorem RowBefore.item {b w : Bytes} {v : Value} (hb : RowBefore .array b) (hv : v.Spaced w) :
    RowBefore .array (b ++ (w ++ [0x2C])) := by
  cases hb with
  | none => exact .some (.items (.last hv))
  | some hrow =>
    cases hrow with
    | items hitems => simpa using RowBefore.some (.items (hitems.append (.last hv)))

theorem RowBefore.member {b s t w : Bytes} {v : Value} (hb : RowBefore .object b)
    (name : TextLiteral) (hs : IsBlank s) (ht : IsBlank t) (hv : v.Spaced w) :
    RowBefore .object (b ++ (s ++ (name.quoted ++ (t ++ 0x3A :: (w ++ [0x2C]))))) := by
  have hlast : MembersWritten [(name, v)] _ := .last hs ht hv
  cases hb with
  | none => simpa using RowBefore.some (.members hlast)
  | some hrow =>
    cases hrow with
    | members hmembers => simpa using RowBefore.some (.members (hmembers.append hlast))

theorem Row.head {k : Container} {b : Bytes} (h : Row k b) :
    ∃ s x rest, b = s ++ x :: rest ∧ IsBlank s ∧ BeginsValue x := by
  cases h with
  | items hitems => exact hitems.head
  | members hmembers =>
    obtain ⟨s, rest, hb, hs⟩ := hmembers.head
    exact ⟨s, 0x22, rest, hb, hs, by decide⟩

/-! ### Positions -/

/-- The bytes on both sides of one value in a JSON text, or of the name of one member, with the
containers it is in and whether it comes first in the innermost of them. -/
inductive Around : (isName isFirst : Bool) → List Container → Bytes → Bytes → Prop where
  /-- The value of the text. -/
  | whole : Around false false [] [] []
  /-- There may be white space on both sides. -/
  | space {n f : Bool} {e : List Container} {a c s t : Bytes} : Around n f e a c →
      IsBlank s → IsBlank t → Around n f e (a ++ s) (t ++ c)
  /-- An item of an array. -/
  | item {f : Bool} {e : List Container} {a c b d : Bytes} : Around false f e a c →
      RowBefore .array b → RowBehind .array d →
      Around false b.isEmpty (.array :: e) (a ++ 0x5B :: b) (d ++ 0x5D :: c)
  /-- The name of a member of an object. -/
  | name {f : Bool} {e : List Container} {a c b w d : Bytes} {v : Value} : Around false f e a c →
      RowBefore .object b → v.Spaced w → RowBehind .object d →
      Around true b.isEmpty (.object :: e) (a ++ 0x7B :: b) (0x3A :: (w ++ (d ++ 0x7D :: c)))
  /-- The value of a member of an object. -/
  | member {f : Bool} {e : List Container} {a c b s t d : Bytes} {name : TextLiteral} :
      Around false f e a c → RowBefore .object b → IsBlank s → IsBlank t → RowBehind .object d →
      Around false false (.object :: e)
        (a ++ 0x7B :: (b ++ (s ++ (name.quoted ++ (t ++ [0x3A]))))) (d ++ 0x7D :: c)

/-- The bytes are a name, or a value. -/
inductive Fills : (isName : Bool) → Bytes → Prop where
  | value {v : Value} {b : Bytes} : v.Written b → Fills false b
  | name (t : TextLiteral) : Fills true t.quoted

theorem Fills.head {n : Bool} {b : Bytes} (h : Fills n b) :
    ∃ x rest, b = x :: rest ∧ BeginsValue x := by
  cases h with
  | value hv => exact hv.head
  | name t => exact ⟨_, _, rfl, by decide⟩

/-- Whether a value is a number or a word. -/
def Value.IsBare : Value → Prop
  | .null | .bool _ | .number _ => True
  | .text _ | .array _ | .object _ => False

/-- What a place in a JSON text is like.  The containers that enclose it are the open ones with
something in them, and the innermost comes first. -/
inductive Position where
  /-- Outside texts, and not in an empty container.  In front of what comes first in the innermost
  container nothing of that is there yet. -/
  | outside (isFirst : Bool) (enclosing : List Container)
  /-- In an empty container. -/
  | empty (container : Container) (enclosing : List Container)
  /-- In a text, of which so much has been read. -/
  | text (enclosing : List Container) (read : Bytes)

/-- A position is the place between two parts of a JSON text. -/
inductive Position.Between : Position → Bytes → Bytes → Prop where
  /-- In front of a value or name. -/
  | before {n f : Bool} {e : List Container} {a c s b : Bytes} : Around n f e a c →
      IsBlank s → Fills n b → Between (.outside f e) a (s ++ (b ++ c))
  /-- Behind a value or name. -/
  | behind {n f : Bool} {e : List Container} {a c b t : Bytes} : Around n f e a c →
      Fills n b → IsBlank t → Between (.outside false e) (a ++ (b ++ t)) c
  /-- Within a number or word. -/
  | word {f : Bool} {e : List Container} {a c b d : Bytes} {v : Value} : Around false f e a c →
      v.IsBare → v.Written (b ++ d) → b ≠ [] → d ≠ [] →
      Between (.outside false e) (a ++ b) (d ++ c)
  /-- Between the quotes of a text, which may be a name. -/
  | text {n f : Bool} {e : List Container} {a c b d : Bytes} : Around n f e a c →
      IsContent (b ++ d) → Between (.text e b) (a ++ 0x22 :: b) (d ++ 0x22 :: c)
  /-- Between the brackets of an empty container. -/
  | empty {f : Bool} {e : List Container} {a c s t : Bytes} (k : Container) : Around false f e a c →
      IsBlank s → IsBlank t → Between (.empty k e) (a ++ k.opening :: s) (t ++ k.closing :: c)

/-! ### Every place is a position -/

/-- Every place in these bytes is a position, when so much is before and behind them. -/
def IsCovered (a b c : Bytes) : Prop :=
  ∀ b₁ b₂, b = b₁ ++ b₂ → ∃ p : Position, p.Between (a ++ b₁) (b₂ ++ c)

section Covered

variable {a b c d s t : Bytes}

theorem IsCovered.append (h : IsCovered a b (d ++ c)) (h' : IsCovered (a ++ b) d c) :
    IsCovered a (b ++ d) c := by
  intro b₁ b₂ hb
  rcases List.append_eq_append_iff.mp hb with ⟨d₁, rfl, rfl⟩ | ⟨b', rfl, rfl⟩
  · simpa using h' d₁ b₂ rfl
  · simpa using h b₁ b' rfl

/-- A byte between two parts has a place on both sides, which belong to the parts. -/
theorem IsCovered.join {x : UInt8} (h : IsCovered a b (x :: (d ++ c)))
    (h' : IsCovered (a ++ (b ++ [x])) d c) : IsCovered a (b ++ x :: d) c := by
  intro b₁ b₂ hb
  rcases List.append_eq_append_iff.mp hb with ⟨d₁, rfl, hd⟩ | ⟨b', rfl, rfl⟩
  · cases d₁ with
    | nil =>
      obtain rfl : x :: d = b₂ := hd
      simpa using h b [] (List.append_nil b).symm
    | cons y d₁ =>
      obtain ⟨rfl, rfl⟩ := List.cons.inj hd
      simpa using h' d₁ b₂ rfl
  · simpa using h b₁ b' rfl

variable {n f : Bool} {e : List Container}

/-- White space on both sides of a name or value. -/
theorem Around.isCovered_spaced (h : Around n f e a c) (hs : IsBlank s) (hb : Fills n b)
    (ht : IsBlank t) (hcovered : IsCovered (a ++ s) b (t ++ c)) :
    IsCovered a (s ++ (b ++ t)) c := by
  refine .append ?_ (.append hcovered ?_)
  · rintro s₁ s₂ rfl
    obtain ⟨hs₁, hs₂⟩ := List.forall_mem_append.mp hs
    exact ⟨_, by simpa using Position.Between.before (h.space hs₁ ht) hs₂ hb⟩
  · rintro t₁ t₂ rfl
    obtain ⟨ht₁, ht₂⟩ := List.forall_mem_append.mp ht
    exact ⟨_, by simpa using Position.Between.behind (h.space hs ht₂) hb ht₁⟩

theorem Around.between_before (h : Around n f e a c) (hb : Fills n b) :
    (Position.outside f e).Between a (b ++ c) := .before h isBlank_nil hb

theorem Around.between_behind (h : Around n f e a c) (hb : Fills n b) :
    (Position.outside false e).Between (a ++ b) c := by
  simpa using Position.Between.behind h hb isBlank_nil

/-- The places at both ends of a name or value are known, so those within it are enough. -/
theorem Around.isCovered_of_within (h : Around n f e a c) (hb : Fills n b)
    (hwithin : ∀ b₁ b₂, b = b₁ ++ b₂ → b₁ ≠ [] → b₂ ≠ [] →
      ∃ p : Position, p.Between (a ++ b₁) (b₂ ++ c)) : IsCovered a b c := by
  intro b₁ b₂ hsplit
  rcases eq_or_ne b₁ [] with rfl | hb₁
  · obtain rfl : b = b₂ := hsplit
    exact ⟨_, by simpa using h.between_before hb⟩
  · rcases eq_or_ne b₂ [] with rfl | hb₂
    · obtain rfl : b = b₁ := by simpa using hsplit
      exact ⟨_, h.between_behind hb⟩
    · exact hwithin b₁ b₂ hsplit hb₁ hb₂

/-- What is in brackets is enclosed by them. -/
theorem exists_of_bracketed {x y : UInt8} {b₁ b₂ : Bytes} (h : x :: (b ++ [y]) = b₁ ++ b₂)
    (hb₁ : b₁ ≠ []) (hb₂ : b₂ ≠ []) :
    ∃ c₁ c₂, b₁ = x :: c₁ ∧ b₂ = c₂ ++ [y] ∧ b = c₁ ++ c₂ := by
  obtain ⟨z, c₁, rfl⟩ := List.exists_cons_of_ne_nil hb₁
  obtain ⟨rfl, hrest⟩ := List.cons.inj h
  obtain ⟨c₂, w, rfl⟩ := (List.eq_nil_or_concat b₂).resolve_left hb₂
  have hlast : b ++ [y] = (c₁ ++ c₂) ++ [w] := by simpa using hrest
  obtain ⟨rfl, hw⟩ := List.append_inj' hlast rfl
  obtain rfl := List.singleton_inj.mp hw
  exact ⟨c₁, c₂, rfl, List.concat_eq_append, rfl⟩

theorem Around.isCovered_quoted (h : Around n f e a c) {l : TextLiteral} (hl : Fills n l.quoted) :
    IsCovered a l.quoted c := by
  refine h.isCovered_of_within hl fun b₁ b₂ hb hb₁ hb₂ => ?_
  obtain ⟨c₁, c₂, rfl, rfl, hc⟩ := exists_of_bracketed hb hb₁ hb₂
  exact ⟨_, by simpa using Position.Between.text h (hc ▸ l.isContent)⟩

theorem Around.isCovered_bare (h : Around false f e a c) {v : Value} (hv : v.Written b)
    (hbare : v.IsBare) : IsCovered a b c :=
  h.isCovered_of_within (.value hv) fun _ _ hb hb₁ hb₂ =>
    ⟨_, .word h hbare (hb ▸ hv) hb₁ hb₂⟩

theorem Around.isCovered_empty (h : Around false f e a c) (k : Container) (hs : IsBlank s)
    (hb : Fills false (k.opening :: (s ++ [k.closing]))) :
    IsCovered a (k.opening :: (s ++ [k.closing])) c := by
  refine h.isCovered_of_within hb fun b₁ b₂ hsplit hb₁ hb₂ => ?_
  obtain ⟨s₁, s₂, rfl, rfl, rfl⟩ := exists_of_bracketed hsplit hb₁ hb₂
  obtain ⟨hs₁, hs₂⟩ := List.forall_mem_append.mp hs
  exact ⟨_, by simpa using Position.Between.empty k h hs₁ hs₂⟩

theorem Around.isCovered_container (h : Around false f e a c) (k : Container)
    (hb : Fills false (k.opening :: (b ++ [k.closing])))
    (hcovered : IsCovered (a ++ [k.opening]) b (k.closing :: c)) :
    IsCovered a (k.opening :: (b ++ [k.closing])) c := by
  refine h.isCovered_of_within hb fun b₁ b₂ hsplit hb₁ hb₂ => ?_
  obtain ⟨c₁, c₂, rfl, rfl, rfl⟩ := exists_of_bracketed hsplit hb₁ hb₂
  obtain ⟨p, hp⟩ := hcovered c₁ c₂ rfl
  exact ⟨p, by simpa using hp⟩

theorem Around.isCovered_member {w r : Bytes} (h : Around false f e a c) (hr : RowBefore .object r)
    (hd : RowBehind .object d) (name : TextLiteral) {v : Value} (hs : IsBlank s) (ht : IsBlank t)
    (hv : v.Spaced w)
    (hcovered : IsCovered (a ++ 0x7B :: (r ++ (s ++ (name.quoted ++ (t ++ [0x3A]))))) w
      (d ++ 0x7D :: c)) :
    IsCovered (a ++ 0x7B :: r) (s ++ (name.quoted ++ (t ++ 0x3A :: w))) (d ++ 0x7D :: c) := by
  have hname := h.name hr hv hd
  have hquoted := hname.isCovered_spaced hs (.name name) ht
    ((hname.space hs ht).isCovered_quoted (.name name))
  simpa using hquoted.join (by simpa using hcovered)

end Covered

mutual

/-- **Every place in a value is a position.** -/
theorem Value.Written.isCovered : ∀ {v : Value} {b : Bytes}, v.Written b →
    ∀ {f : Bool} {e : List Container} {a c : Bytes}, Around false f e a c → IsCovered a b c
  | _, _, .null, _, _, _, _, h => h.isCovered_bare .null trivial
  | _, _, .true, _, _, _, _, h => h.isCovered_bare .true trivial
  | _, _, .false, _, _, _, _, h => h.isCovered_bare .false trivial
  | _, _, .number n, _, _, _, _, h => h.isCovered_bare (.number n) trivial
  | _, _, .text t, _, _, _, _, h => h.isCovered_quoted (.value (.text t))
  | _, _, .emptyArray hs, _, _, _, _, h => h.isCovered_empty .array hs (.value (.emptyArray hs))
  | _, _, .array hitems, _, _, _, _, h =>
    h.isCovered_container .array (.value (.array hitems)) (hitems.isCovered h .none)
  | _, _, .emptyObject hs, _, _, _, _, h => h.isCovered_empty .object hs (.value (.emptyObject hs))
  | _, _, .object hmembers, _, _, _, _, h =>
    h.isCovered_container .object (.value (.object hmembers)) (hmembers.isCovered h .none)

theorem Value.Spaced.isCovered : ∀ {v : Value} {b : Bytes}, v.Spaced b →
    ∀ {f : Bool} {e : List Container} {a c : Bytes}, Around false f e a c → IsCovered a b c
  | _, _, .intro hs hv ht, _, _, _, _, h =>
    h.isCovered_spaced hs (.value hv) ht (hv.isCovered (h.space hs ht))

/-- The places in the items that are left of an array. -/
theorem ItemsWritten.isCovered : ∀ {items : List Value} {b : Bytes}, ItemsWritten items b →
    ∀ {f : Bool} {e : List Container} {a c r : Bytes}, Around false f e a c →
      RowBefore .array r → IsCovered (a ++ 0x5B :: r) b (0x5D :: c)
  | _, _, .last hv, _, _, _, _, _, h, hr => hv.isCovered (h.item hr .none)
  | _, _, .more hv hitems, _, _, _, _, _, h, hr => by
    have hitem := hv.isCovered (h.item hr (.some (.items hitems)))
    have hmore := hitems.isCovered h (hr.item hv)
    refine .join (by simpa using hitem) ?_
    simpa using hmore

/-- The places in the members that are left of an object. -/
theorem MembersWritten.isCovered : ∀ {members : List (TextLiteral × Value)} {b : Bytes},
    MembersWritten members b → ∀ {f : Bool} {e : List Container} {a c r : Bytes},
      Around false f e a c → RowBefore .object r → IsCovered (a ++ 0x7B :: r) b (0x7D :: c)
  | _, _, @MembersWritten.last name _ _ _ _ hs ht hv, _, _, _, _, _, h, hr =>
    h.isCovered_member hr .none name hs ht hv (hv.isCovered (h.member hr hs ht .none))
  | _, _, @MembersWritten.more name _ _ _ _ _ _ hs ht hv hmembers, _, _, _, _, _, h, hr => by
    have hbehind := RowBehind.some (.members hmembers)
    have hmember := h.isCovered_member hr hbehind name hs ht hv
      (hv.isCovered (h.member hr hs ht hbehind))
    have hmore := hmembers.isCovered h (hr.member name hs ht hv)
    simpa using IsCovered.join hmember (by simpa using hmore)

end

/-- **Every place in a JSON text is a position.** -/
theorem Value.Spaced.exists_between {v : Value} {a c : Bytes} (h : v.Spaced (a ++ c)) :
    ∃ p : Position, p.Between a c := by
  simpa using h.isCovered .whole a c rfl

end LedgerGateway.Json
