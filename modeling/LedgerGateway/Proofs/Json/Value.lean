import LedgerGateway.Text.Utf8

/-!
# JSON values, how they are written and how they are shown

A JSON value is a tree (`Value`).  Its numbers and texts keep the bytes they are spelled with, so
that two spellings of one number are two values, and an object is a row of members in which a name
may come twice.

`Value.Written v b` says that `b` is a way to write `v`, with white space or without wherever the
grammar allows it, and `Value.Spaced v b` that there may be white space around it, too.  The grammar
is the strict one of RFC 8259, with the freedom that bytes from `0x80` on may stand in a text
without being looked at.  Every value can be written (`Value.exists_written`).

`Value.pretty` shows a value over several lines.  It goes down the tree: an item or member is a line
of its own, two spaces deeper than the container it is in.
-/

namespace LedgerGateway.Json

/-! ### Bytes of the grammar -/

def IsSpace (x : UInt8) : Prop := x = 0x20 ∨ x = 0x09 ∨ x = 0x0A ∨ x = 0x0D

instance : DecidablePred IsSpace := fun _ => inferInstanceAs (Decidable (_ ∨ _))

def IsBlank (b : Bytes) : Prop := ∀ x ∈ b, IsSpace x

instance : DecidablePred IsBlank := fun b => List.decidableBAll IsSpace b

def IsDigit (x : UInt8) : Prop := 0x30 ≤ x ∧ x ≤ 0x39

instance : DecidablePred IsDigit := fun _ => inferInstanceAs (Decidable (_ ∧ _))

def IsLeadingDigit (x : UInt8) : Prop := 0x31 ≤ x ∧ x ≤ 0x39

instance : DecidablePred IsLeadingDigit := fun _ => inferInstanceAs (Decidable (_ ∧ _))

def IsHexDigit (x : UInt8) : Prop :=
  IsDigit x ∨ 0x41 ≤ x ∧ x ≤ 0x46 ∨ 0x61 ≤ x ∧ x ≤ 0x66

def IsDigits (b : Bytes) : Prop := b ≠ [] ∧ ∀ x ∈ b, IsDigit x

instance : DecidablePred IsDigits := fun b =>
  have := List.decidableBAll IsDigit b
  inferInstanceAs (Decidable (_ ∧ _))

/-! ### Numbers -/

/-- The whole part of a number has no leading zero. -/
inductive IsWhole : Bytes → Prop where
  | zero : IsWhole [0x30]
  | digits {x : UInt8} {b : Bytes} : IsLeadingDigit x → (∀ y ∈ b, IsDigit y) → IsWhole (x :: b)

/-- The fraction of a number, if it has one, is a point and digits. -/
inductive IsFraction : Bytes → Prop where
  | none : IsFraction []
  | point {b : Bytes} : IsDigits b → IsFraction (0x2E :: b)

/-- The exponent of a number, if it has one, is a letter, perhaps a sign, and digits. -/
inductive IsExponent : Bytes → Prop where
  | none : IsExponent []
  | mark {x : UInt8} {sign b : Bytes} : x = 0x65 ∨ x = 0x45 →
      sign = [] ∨ sign = [0x2B] ∨ sign = [0x2D] → IsDigits b → IsExponent (x :: (sign ++ b))

inductive IsNumber : Bytes → Prop where
  | intro {minus whole fraction exponent : Bytes} : minus = [] ∨ minus = [0x2D] →
      IsWhole whole → IsFraction fraction → IsExponent exponent →
      IsNumber (minus ++ (whole ++ (fraction ++ exponent)))

structure NumberLiteral where
  spelling : Bytes
  isNumber : IsNumber spelling

/-! ### Texts -/

/-- The letters of the escapes of a single letter: `" \ / b f n r t`. -/
def escapeLetters : List UInt8 := [0x22, 0x5C, 0x2F, 0x62, 0x66, 0x6E, 0x72, 0x74]

/-- What may stand between the quotes of a text. -/
inductive IsContent : Bytes → Prop where
  | nil : IsContent []
  | plain {x : UInt8} {b : Bytes} : 0x20 ≤ x → x ≠ 0x22 → x ≠ 0x5C → IsContent b →
      IsContent (x :: b)
  | escape {x : UInt8} {b : Bytes} : x ∈ escapeLetters → IsContent b → IsContent (0x5C :: x :: b)
  | unicode {h i j k : UInt8} {b : Bytes} :
      IsHexDigit h → IsHexDigit i → IsHexDigit j → IsHexDigit k → IsContent b →
      IsContent (0x5C :: 0x75 :: h :: i :: j :: k :: b)

/-- A text as it is spelled, without its quotes. -/
structure TextLiteral where
  content : Bytes
  isContent : IsContent content

def TextLiteral.quoted (t : TextLiteral) : Bytes := 0x22 :: (t.content ++ [0x22])

/-! ### Values -/

inductive Value where
  | null
  | bool (b : Bool)
  | number (n : NumberLiteral)
  | text (t : TextLiteral)
  | array (items : List Value)
  | object (members : List (TextLiteral × Value))

mutual

/-- A value may be written as these bytes, which begin and end with it. -/
inductive Value.Written : Value → Bytes → Prop where
  | null : Value.Written .null [0x6E, 0x75, 0x6C, 0x6C]
  | true : Value.Written (.bool true) [0x74, 0x72, 0x75, 0x65]
  | false : Value.Written (.bool false) [0x66, 0x61, 0x6C, 0x73, 0x65]
  | number (n : NumberLiteral) : Value.Written (.number n) n.spelling
  | text (t : TextLiteral) : Value.Written (.text t) t.quoted
  | emptyArray {s : Bytes} : IsBlank s → Value.Written (.array []) (0x5B :: (s ++ [0x5D]))
  | array {items : List Value} {b : Bytes} : ItemsWritten items b →
      Value.Written (.array items) (0x5B :: (b ++ [0x5D]))
  | emptyObject {s : Bytes} : IsBlank s → Value.Written (.object []) (0x7B :: (s ++ [0x7D]))
  | object {members : List (TextLiteral × Value)} {b : Bytes} : MembersWritten members b →
      Value.Written (.object members) (0x7B :: (b ++ [0x7D]))

/-- A value may be written as these bytes, and there may be white space around it. -/
inductive Value.Spaced : Value → Bytes → Prop where
  | intro {v : Value} {s b t : Bytes} : IsBlank s → Value.Written v b → IsBlank t →
      Value.Spaced v (s ++ (b ++ t))

/-- The items of an array, of which there is at least one, may be written as these bytes. -/
inductive ItemsWritten : List Value → Bytes → Prop where
  | last {v : Value} {b : Bytes} : Value.Spaced v b → ItemsWritten [v] b
  | more {v : Value} {b : Bytes} {items : List Value} {c : Bytes} : Value.Spaced v b →
      ItemsWritten items c → ItemsWritten (v :: items) (b ++ 0x2C :: c)

/-- The members of an object, of which there is at least one, may be written as these bytes. -/
inductive MembersWritten : List (TextLiteral × Value) → Bytes → Prop where
  | last {name : TextLiteral} {v : Value} {s t b : Bytes} : IsBlank s → IsBlank t → Value.Spaced v b →
      MembersWritten [(name, v)] (s ++ (name.quoted ++ (t ++ 0x3A :: b)))
  | more {name : TextLiteral} {v : Value} {s t b : Bytes}
      {members : List (TextLiteral × Value)} {c : Bytes} : IsBlank s → IsBlank t → Value.Spaced v b →
      MembersWritten members c →
      MembersWritten ((name, v) :: members) (s ++ (name.quoted ++ (t ++ 0x3A :: (b ++ 0x2C :: c))))

end

theorem isBlank_nil : IsBlank [] := List.forall_mem_nil IsSpace

/-- There need not be white space around a value. -/
theorem Value.Written.spaced {v : Value} {b : Bytes} (h : v.Written b) : v.Spaced b := by
  have hspaced := Value.Spaced.intro isBlank_nil h isBlank_nil
  rwa [List.append_nil, List.nil_append] at hspaced

mutual

/-- **Every value can be written.** -/
theorem Value.exists_written : ∀ v : Value, ∃ b, v.Written b
  | .null => ⟨_, .null⟩
  | .bool true => ⟨_, .true⟩
  | .bool false => ⟨_, .false⟩
  | .number n => ⟨_, .number n⟩
  | .text t => ⟨_, .text t⟩
  | .array items => by
    rcases exists_itemsWritten items with rfl | ⟨b, hb⟩
    · exact ⟨_, .emptyArray isBlank_nil⟩
    · exact ⟨_, .array hb⟩
  | .object members => by
    rcases exists_membersWritten members with rfl | ⟨b, hb⟩
    · exact ⟨_, .emptyObject isBlank_nil⟩
    · exact ⟨_, .object hb⟩

theorem exists_itemsWritten : ∀ items : List Value, items = [] ∨ ∃ b, ItemsWritten items b
  | [] => .inl rfl
  | v :: items => by
    obtain ⟨b, hb⟩ := v.exists_written
    rcases exists_itemsWritten items with rfl | ⟨c, hc⟩
    · exact .inr ⟨_, .last hb.spaced⟩
    · exact .inr ⟨_, .more hb.spaced hc⟩

theorem exists_membersWritten : ∀ members : List (TextLiteral × Value),
    members = [] ∨ ∃ b, MembersWritten members b
  | [] => .inl rfl
  | (name, v) :: members => by
    obtain ⟨b, hb⟩ := v.exists_written
    rcases exists_membersWritten members with rfl | ⟨c, hc⟩
    · exact .inr ⟨_, .last isBlank_nil isBlank_nil hb.spaced⟩
    · exact .inr ⟨_, .more isBlank_nil isBlank_nil hb.spaced hc⟩

end

/-! ### The text of a value -/

/-- A line end and the indentation of the next line. -/
def lineBreak (depth : Nat) : String :=
  "\n" ++ String.join (List.replicate depth "  ")

/-- A container with its items or members, each of them on lines of its own. -/
def container (opening closing : String) (depth : Nat) : List String → String
  | [] => opening ++ closing
  | lines =>
    opening ++ lineBreak (depth + 1) ++ String.intercalate ("," ++ lineBreak (depth + 1)) lines ++
      lineBreak depth ++ closing

def NumberLiteral.shown (n : NumberLiteral) : String :=
  String.ofList (n.spelling.map fun x => Char.ofNat x.toNat)

def TextLiteral.shown (t : TextLiteral) : String :=
  "\"" ++ Text.decodeLossy t.content ++ "\""

mutual

/-- The text of a value inside so many containers. -/
def Value.pretty : Value → (depth : Nat) → String
  | .null, _ => "null"
  | .bool b, _ => if b then "true" else "false"
  | .number n, _ => n.shown
  | .text t, _ => t.shown
  | .array items, depth => container "[" "]" depth (prettyItems items (depth + 1))
  | .object members, depth => container "\x7b" "\x7d" depth (prettyMembers members (depth + 1))

def prettyItems : List Value → (depth : Nat) → List String
  | [], _ => []
  | v :: items, depth => v.pretty depth :: prettyItems items depth

def prettyMembers : List (TextLiteral × Value) → (depth : Nat) → List String
  | [], _ => []
  | (name, v) :: members, depth =>
    (name.shown ++ ": " ++ v.pretty depth) :: prettyMembers members depth

end

/-! ### How values begin -/

def BeginsValue (x : UInt8) : Prop := x < 0x80 ∧ ¬ IsSpace x ∧ x ≠ 0x5D ∧ x ≠ 0x7D

instance : DecidablePred BeginsValue := fun _ => inferInstanceAs (Decidable (_ ∧ _))

theorem IsLeadingDigit.isDigit {x : UInt8} (h : IsLeadingDigit x) : IsDigit x := by
  grind [IsDigit, IsLeadingDigit]

theorem IsDigit.beginsValue {x : UInt8} (h : IsDigit x) : BeginsValue x := by
  grind [IsDigit, BeginsValue, IsSpace]

theorem IsNumber.head {b : Bytes} (h : IsNumber b) : ∃ x rest, b = x :: rest ∧ BeginsValue x := by
  obtain ⟨rfl | rfl, hwhole, -, -⟩ := h
  · cases hwhole with
    | zero => exact ⟨_, _, rfl, by decide⟩
    | digits hx _ => exact ⟨_, _, rfl, hx.isDigit.beginsValue⟩
  · exact ⟨_, _, rfl, by decide⟩

theorem Value.Written.head {v : Value} {b : Bytes} (h : v.Written b) :
    ∃ x rest, b = x :: rest ∧ BeginsValue x := by
  cases h with
  | number n => exact n.isNumber.head
  | _ => exact ⟨_, _, rfl, by decide⟩

/-- A row of items begins, behind white space, with the first byte of a value. -/
theorem ItemsWritten.head {items : List Value} {b : Bytes} (h : ItemsWritten items b) :
    ∃ s x rest, b = s ++ x :: rest ∧ IsBlank s ∧ BeginsValue x := by
  have hspaced : ∀ {v : Value} {b : Bytes}, v.Spaced b →
      ∃ s x rest, b = s ++ x :: rest ∧ IsBlank s ∧ BeginsValue x := by
    rintro v _ ⟨hs, hv, -⟩
    obtain ⟨x, rest, rfl, hx⟩ := hv.head
    exact ⟨_, x, _, rfl, hs, hx⟩
  cases h with
  | last hv => exact hspaced hv
  | more hv _ =>
    obtain ⟨s, x, rest, rfl, hs, hx⟩ := hspaced hv
    exact ⟨s, x, _, List.append_assoc _ _ _, hs, hx⟩

/-- A row of members begins, behind white space, with a quote. -/
theorem MembersWritten.head {members : List (TextLiteral × Value)} {b : Bytes}
    (h : MembersWritten members b) : ∃ s rest, b = s ++ 0x22 :: rest ∧ IsBlank s := by
  cases h with
  | last hs _ _ => exact ⟨_, _, rfl, hs⟩
  | more hs _ _ _ => exact ⟨_, _, rfl, hs⟩

end LedgerGateway.Json
