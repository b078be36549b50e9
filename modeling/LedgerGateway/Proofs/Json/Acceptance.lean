import LedgerGateway.Proofs.Json.Recognition
import LedgerGateway.Proofs.Text.Lossy
import LedgerGateway.ResultText
import Mathlib.Data.List.Basic

/-!
# Nothing else is recognised

For every state of the scanner there are the bytes that may follow it (`Scan.Accepts`): the rest of
the token it stands in, then what the grammar allows behind a value inside the containers that are
open (`Closes`).  A byte that is read takes one such state to another, so what follows the second
follows the first with the byte in front (`Scan.accepts_of_step`).  So bytes that are read to a
complete end follow the state before them, and what follows the first state of all is one value with
white space around it.

Together with the other direction the scanner recognises exactly the values of the grammar
(`isJson_iff`), and a result is laid out exactly if it is one (`resultText_exact`).
-/

namespace LedgerGateway.Json

/-! ### One thing before another -/

/-- The bytes are a word of one kind before bytes of another. -/
def Before (P K : Bytes → Prop) (b : Bytes) : Prop := ∃ w c, P w ∧ K c ∧ b = w ++ c

section Before

variable {P Q K : Bytes → Prop} {x : UInt8} {b : Bytes}

theorem before_of_nil (hnil : P []) (h : K b) : Before P K b := ⟨[], b, hnil, h, rfl⟩

theorem Before.cons (hcons : ∀ w, P w → Q (x :: w)) (h : Before P K b) : Before Q K (x :: b) := by
  obtain ⟨w, c, hw, hc, rfl⟩ := h
  exact ⟨x :: w, c, hcons w hw, hc, rfl⟩

end Before

theorem IsBlank.cons {x : UInt8} {s : Bytes} (hx : IsSpace x) (hs : IsBlank s) :
    IsBlank (x :: s) := List.forall_mem_cons.mpr ⟨hx, hs⟩

theorem IsBlank.append {s t : Bytes} (hs : IsBlank s) (ht : IsBlank t) : IsBlank (s ++ t) :=
  List.forall_mem_append.mpr ⟨hs, ht⟩

section Bytes

variable {x : UInt8}

theorem isLeadingDigit_iff : Scan.isLeadingDigit x = true ↔ IsLeadingDigit x := by
  simp [Scan.isLeadingDigit, IsLeadingDigit]

theorem isDigit_iff : Scan.isDigit x = true ↔ IsDigit x := by
  simp [Scan.isDigit, IsDigit]

theorem isHexDigit_iff : Scan.isHexDigit x = true ↔ IsHexDigit x := by
  simp [Scan.isHexDigit, Scan.isDigit, IsHexDigit, IsDigit, or_assoc]

theorem isExponentMark_iff : Scan.isExponentMark x = true ↔ x = 0x65 ∨ x = 0x45 := by
  simp [Scan.isExponentMark]

theorem isSimpleEscape_iff : Scan.isSimpleEscape x = true ↔ x ∈ escapeLetters := by
  simp [Scan.isSimpleEscape, escapeLetters, or_assoc]

end Bytes

/-! ### What follows a value -/

/-- What may follow a value inside open containers: white space, more items or members, and the
ends of the containers. -/
inductive Closes : List Container → Bytes → Prop where
  | nil {s : Bytes} : IsBlank s → Closes [] s
  | endArray {e : List Container} {s c : Bytes} : IsBlank s → Closes e c →
      Closes (.array :: e) (s ++ 0x5D :: c)
  | items {e : List Container} {s b c : Bytes} {items : List Value} : IsBlank s →
      ItemsWritten items b → Closes e c → Closes (.array :: e) (s ++ 0x2C :: (b ++ 0x5D :: c))
  | endObject {e : List Container} {s c : Bytes} : IsBlank s → Closes e c →
      Closes (.object :: e) (s ++ 0x7D :: c)
  | members {e : List Container} {s b c : Bytes} {members : List (TextLiteral × Value)} :
      IsBlank s → MembersWritten members b → Closes e c →
      Closes (.object :: e) (s ++ 0x2C :: (b ++ 0x7D :: c))

/-- The bytes are a value, from its first byte to its last. -/
def IsWritten (b : Bytes) : Prop := ∃ v : Value, v.Written b

def IsQuoted (b : Bytes) : Prop := ∃ t : TextLiteral, b = t.quoted

def AcceptsValue (e : List Container) : Bytes → Prop :=
  Before IsBlank (Before IsWritten (Closes e))

def AcceptsColon (e : List Container) : Bytes → Prop :=
  Before IsBlank (Before (· = [0x3A]) (AcceptsValue e))

def AcceptsMember (e : List Container) : Bytes → Prop :=
  Before IsBlank (Before IsQuoted (AcceptsColon e))

def AcceptsAfterText (e : List Container) : (isName : Bool) → Bytes → Prop
  | true => AcceptsColon e
  | false => Closes e

def AcceptsText (e : List Container) (isName : Bool) : Bytes → Prop :=
  Before IsContent (Before (· = [0x22]) (AcceptsAfterText e isName))

def AcceptsEnd (e : List Container) (closing : UInt8) : Bytes → Prop :=
  Before IsBlank (Before (· = [closing]) (Closes e.tail))

def AreDigits (b : Bytes) : Prop := ∀ x ∈ b, IsDigit x

theorem areDigits_nil : AreDigits [] := List.forall_mem_nil IsDigit

theorem AreDigits.cons {x : UInt8} {b : Bytes} (hx : IsDigit x) (h : AreDigits b) :
    AreDigits (x :: b) := List.forall_mem_cons.mpr ⟨hx, h⟩

theorem AreDigits.isDigits_cons {x : UInt8} {b : Bytes} (hx : IsDigit x) (h : AreDigits b) :
    IsDigits (x :: b) := ⟨List.cons_ne_nil x b, h.cons hx⟩

def IsSign (b : Bytes) : Prop := b = [] ∨ b = [0x2B] ∨ b = [0x2D]

/-- What is behind the backslash of an escape. -/
inductive IsEscape : Bytes → Prop where
  | letter {x : UInt8} : x ∈ escapeLetters → IsEscape [x]
  | unicode {h i j k : UInt8} : IsHexDigit h → IsHexDigit i → IsHexDigit j → IsHexDigit k →
      IsEscape [0x75, h, i, j, k]

def AreHexDigits (n : Nat) (b : Bytes) : Prop := b.length = n ∧ ∀ x ∈ b, IsHexDigit x

theorem IsEscape.of_areHexDigits {w : Bytes} (h : AreHexDigits 4 w) : IsEscape (0x75 :: w) := by
  obtain ⟨hlength, hhex⟩ := h
  obtain ⟨h, i, j, k, rfl⟩ := List.length_eq_four.mp hlength
  simp only [List.forall_mem_cons] at hhex
  exact .unicode hhex.1 hhex.2.1 hhex.2.2.1 hhex.2.2.2.1

/-- What may follow a state of the scanner. -/
def Scan.Accepts : Scan → Bytes → Prop
  | ⟨e, .value⟩, b => AcceptsValue e b
  | ⟨e, .firstItem⟩, b => AcceptsEnd e 0x5D b ∨ AcceptsValue e b
  | ⟨e, .firstMember⟩, b => AcceptsEnd e 0x7D b ∨ AcceptsMember e b
  | ⟨e, .member⟩, b => AcceptsMember e b
  | ⟨e, .colon⟩, b => AcceptsColon e b
  | ⟨e, .afterValue⟩, b => Closes e b
  | ⟨e, .word rest⟩, b => Before (· = rest) (Closes e) b
  | ⟨e, .minus⟩, b => Before IsWhole (Before IsFraction (Before IsExponent (Closes e))) b
  | ⟨e, .zero⟩, b => Before IsFraction (Before IsExponent (Closes e)) b
  | ⟨e, .whole⟩, b => Before AreDigits (Before IsFraction (Before IsExponent (Closes e))) b
  | ⟨e, .point⟩, b => Before IsDigits (Before IsExponent (Closes e)) b
  | ⟨e, .fraction⟩, b => Before AreDigits (Before IsExponent (Closes e)) b
  | ⟨e, .exponent⟩, b => Before IsSign (Before IsDigits (Closes e)) b
  | ⟨e, .exponentSign⟩, b => Before IsDigits (Closes e) b
  | ⟨e, .power⟩, b => Before AreDigits (Closes e) b
  | ⟨e, .text isName⟩, b => AcceptsText e isName b
  | ⟨e, .escape isName⟩, b => Before IsEscape (AcceptsText e isName) b
  | ⟨e, .unicode isName left⟩, b => Before (AreHexDigits (max left 1)) (AcceptsText e isName) b

/-! ### Items and members -/

/-- A value inside an array belongs to a row of items, which the array ends. -/
theorem AcceptsValue.items {e : List Container} {b : Bytes} (h : AcceptsValue (.array :: e) b) :
    ∃ items w c, ItemsWritten items w ∧ Closes e c ∧ b = w ++ 0x5D :: c := by
  obtain ⟨s, _, hs, ⟨w, _, ⟨v, hv⟩, hc, rfl⟩, rfl⟩ := h
  cases hc with
  | @endArray _ t c ht hc =>
    exact ⟨[v], s ++ (w ++ t), c, .last ⟨hs, hv, ht⟩, hc, by simp⟩
  | @items _ t b c items ht hitems hc =>
    exact ⟨v :: items, s ++ (w ++ t) ++ 0x2C :: b, c, .more ⟨hs, hv, ht⟩ hitems, hc, by simp⟩

/-- A member of an object belongs to a row of members, which the object ends. -/
theorem AcceptsMember.members {e : List Container} {b : Bytes}
    (h : AcceptsMember (.object :: e) b) :
    ∃ members w c, MembersWritten members w ∧ Closes e c ∧ b = w ++ 0x7D :: c := by
  obtain ⟨s, _, hs, ⟨_, _, ⟨name, rfl⟩, ⟨t, _, ht, ⟨_, _, rfl, hvalue, rfl⟩, rfl⟩, rfl⟩, rfl⟩ := h
  obtain ⟨s', _, hs', ⟨w, _, ⟨v, hv⟩, hc, rfl⟩, rfl⟩ := hvalue
  cases hc with
  | @endObject _ t' c ht' hc =>
    exact ⟨[(name, v)], s ++ (name.quoted ++ (t ++ 0x3A :: (s' ++ (w ++ t')))), c,
      .last hs ht ⟨hs', hv, ht'⟩, hc, by simp⟩
  | @members _ t' b c members ht' hmembers hc =>
    exact ⟨(name, v) :: members,
      s ++ (name.quoted ++ (t ++ 0x3A :: (s' ++ (w ++ t') ++ 0x2C :: b))), c,
      .more hs ht ⟨hs', hv, ht'⟩ hmembers, hc, by simp⟩

/-! ### One byte -/

section Step

variable {e : List Container} {t : Scan} {x : UInt8} {b : Bytes}

theorem Closes.cons (hx : IsSpace x) (h : Closes e b) : Closes e (x :: b) := by
  cases h with
  | nil hs => exact .nil (hs.cons hx)
  | endArray hs hc => exact .endArray (s := x :: _) (hs.cons hx) hc
  | items hs hitems hc => exact .items (s := x :: _) (hs.cons hx) hitems hc
  | endObject hs hc => exact .endObject (s := x :: _) (hs.cons hx) hc
  | members hs hmembers hc => exact .members (s := x :: _) (hs.cons hx) hmembers hc

/-- White space may be put in front of what white space may come before. -/
theorem Before.space {K : Bytes → Prop} (hx : IsSpace x) (h : Before IsBlank K b) :
    Before IsBlank K (x :: b) :=
  h.cons fun _ hs => hs.cons hx

/-- A byte behind a value. -/
theorem closes_of_afterValue (h : Scan.afterValue e x = some t) (hb : t.Accepts b) :
    Closes e (x :: b) := by
  unfold Scan.afterValue at h
  split at h
  · rename_i hspace
    cases h
    exact hb.cons (Scan.isSpace_iff.mp hspace)
  · cases e with
    | nil => cases h
    | cons container e =>
      cases container with
      | array =>
        simp only [beq_iff_eq] at h
        split_ifs at h with hcomma hclose <;> cases h
        · obtain ⟨items, w, c, hitems, hc, rfl⟩ := AcceptsValue.items hb
          rw [hcomma]
          exact .items isBlank_nil hitems hc
        · rw [hclose]
          exact .endArray isBlank_nil hb
      | object =>
        simp only [beq_iff_eq] at h
        split_ifs at h with hcomma hclose <;> cases h
        · obtain ⟨members, w, c, hmembers, hc, rfl⟩ := AcceptsMember.members hb
          rw [hcomma]
          exact .members isBlank_nil hmembers hc
        · rw [hclose]
          exact .endObject isBlank_nil hb

theorem isExponent_of_mark {K : Bytes → Prop} (hx : x = 0x65 ∨ x = 0x45)
    (h : Before IsSign (Before IsDigits K) b) : Before IsExponent K (x :: b) := by
  obtain ⟨sign, _, hsign, ⟨digits, c, hdigits, hc, rfl⟩, rfl⟩ := h
  exact ⟨x :: (sign ++ digits), c, .mark hx hsign hdigits, hc, by simp⟩

theorem isQuoted_of_text (hx : x = 0x22) (h : AcceptsText e true b) :
    Before IsQuoted (AcceptsColon e) (x :: b) := by
  obtain ⟨content, _, hcontent, ⟨_, c, rfl, hc, rfl⟩, rfl⟩ := h
  exact ⟨0x22 :: (content ++ [0x22]), c, ⟨⟨content, hcontent⟩, rfl⟩, hc, by simp [hx]⟩

theorem IsNumber.isWritten {w : Bytes} (h : IsNumber w) : IsWritten w :=
  ⟨.number ⟨w, h⟩, .number _⟩

/-- The first byte of a value. -/
theorem isWritten_of_beginValue (h : Scan.beginValue e x = some t) (hb : t.Accepts b) :
    Before IsWritten (Closes e) (x :: b) := by
  simp only [Scan.beginValue, beq_iff_eq] at h
  split_ifs at h with hx hx hx hx hx hx hx hx hx <;> cases h
  · rw [hx]
    rcases hb with ⟨s, _, hs, ⟨_, c, rfl, hc, rfl⟩, rfl⟩ | hb
    · exact ⟨0x5B :: (s ++ [0x5D]), c, ⟨_, .emptyArray hs⟩, hc, by simp⟩
    · obtain ⟨items, w, c, hitems, hc, rfl⟩ := hb.items
      exact ⟨0x5B :: (w ++ [0x5D]), c, ⟨_, .array hitems⟩, hc, by simp⟩
  · rw [hx]
    rcases hb with ⟨s, _, hs, ⟨_, c, rfl, hc, rfl⟩, rfl⟩ | hb
    · exact ⟨0x7B :: (s ++ [0x7D]), c, ⟨_, .emptyObject hs⟩, hc, by simp⟩
    · obtain ⟨members, w, c, hmembers, hc, rfl⟩ := hb.members
      exact ⟨0x7B :: (w ++ [0x7D]), c, ⟨_, .object hmembers⟩, hc, by simp⟩
  · rw [hx]
    obtain ⟨content, _, hcontent, ⟨_, c, rfl, hc, rfl⟩, rfl⟩ := hb
    exact ⟨0x22 :: (content ++ [0x22]), c, ⟨_, .text ⟨content, hcontent⟩⟩, hc, by simp⟩
  · rw [hx]
    obtain ⟨whole, _, hwhole, ⟨fraction, _, hfraction, ⟨exponent, c, hexponent, hc, rfl⟩, rfl⟩,
      rfl⟩ := hb
    exact ⟨_, c, (IsNumber.intro (.inr rfl) hwhole hfraction hexponent).isWritten, hc, by simp⟩
  · rw [hx]
    obtain ⟨fraction, _, hfraction, ⟨exponent, c, hexponent, hc, rfl⟩, rfl⟩ := hb
    exact ⟨_, c, (IsNumber.intro (.inl rfl) .zero hfraction hexponent).isWritten, hc, by simp⟩
  · obtain ⟨digits, _, hdigits, ⟨fraction, _, hfraction, ⟨exponent, c, hexponent, hc, rfl⟩, rfl⟩,
      rfl⟩ := hb
    have hwhole : IsWhole (x :: digits) := .digits (isLeadingDigit_iff.mp hx) hdigits
    exact ⟨_, c, (IsNumber.intro (.inl rfl) hwhole hfraction hexponent).isWritten, hc, by simp⟩
  · obtain ⟨_, c, rfl, hc, rfl⟩ := hb
    exact ⟨_, c, ⟨_, .true⟩, hc, by rw [hx]; rfl⟩
  · obtain ⟨_, c, rfl, hc, rfl⟩ := hb
    exact ⟨_, c, ⟨_, .false⟩, hc, by rw [hx]; rfl⟩
  · obtain ⟨_, c, rfl, hc, rfl⟩ := hb
    exact ⟨_, c, ⟨_, .null⟩, hc, by rw [hx]; rfl⟩

/-- **What follows the state behind a byte follows the state before it, with the byte in front.** -/
theorem Scan.accepts_of_step {s : Scan} (h : s.step x = some t) (hb : t.Accepts b) :
    s.Accepts (x :: b) := by
  obtain ⟨e, p⟩ := s
  cases p with
  | value =>
    simp only [step] at h
    split at h
    · rename_i hspace
      cases h
      exact Before.space (isSpace_iff.mp hspace) hb
    · exact before_of_nil isBlank_nil (isWritten_of_beginValue h hb)
  | firstItem =>
    simp only [step, beq_iff_eq] at h
    split_ifs at h with hspace hclose
    · cases h
      have hx := isSpace_iff.mp hspace
      exact hb.imp (Before.space hx) (Before.space hx)
    · cases h
      exact .inl (before_of_nil isBlank_nil ⟨[x], b, by rw [hclose], hb, rfl⟩)
    · exact .inr (before_of_nil isBlank_nil (isWritten_of_beginValue h hb))
  | firstMember =>
    simp only [step, beq_iff_eq] at h
    split_ifs at h with hspace hclose hquote <;> cases h
    · have hx := isSpace_iff.mp hspace
      exact hb.imp (Before.space hx) (Before.space hx)
    · exact .inl (before_of_nil isBlank_nil ⟨[x], b, by rw [hclose], hb, rfl⟩)
    · exact .inr (before_of_nil isBlank_nil (isQuoted_of_text hquote hb))
  | member =>
    simp only [step, beq_iff_eq] at h
    split_ifs at h with hspace hquote <;> cases h
    · exact Before.space (isSpace_iff.mp hspace) hb
    · exact before_of_nil isBlank_nil (isQuoted_of_text hquote hb)
  | colon =>
    simp only [step, beq_iff_eq] at h
    split_ifs at h with hspace hcolon <;> cases h
    · exact Before.space (isSpace_iff.mp hspace) hb
    · exact before_of_nil isBlank_nil ⟨[x], b, by rw [hcolon], hb, rfl⟩
  | afterValue => exact closes_of_afterValue h hb
  | word rest =>
    cases rest with
    | nil => exact before_of_nil rfl (closes_of_afterValue h hb)
    | cons y rest =>
      cases rest with
      | nil =>
        simp only [step, beq_iff_eq] at h
        split_ifs at h with hx
        cases h
        exact ⟨[x], b, by rw [hx], hb, rfl⟩
      | cons z rest =>
        simp only [step, beq_iff_eq] at h
        split_ifs at h with hx
        cases h
        exact hb.cons fun w hw => by rw [hw, hx]
  | minus =>
    simp only [step, beq_iff_eq] at h
    split_ifs at h with hzero hlead <;> cases h
    · exact ⟨[x], b, hzero ▸ .zero, hb, rfl⟩
    · exact hb.cons fun _ => .digits (isLeadingDigit_iff.mp hlead)
  | zero =>
    simp only [step, beq_iff_eq] at h
    split_ifs at h with hpoint hmark
    · cases h
      exact hb.cons fun _ => hpoint ▸ .point
    · cases h
      exact before_of_nil .none (isExponent_of_mark (isExponentMark_iff.mp hmark) hb)
    · exact before_of_nil .none (before_of_nil .none (closes_of_afterValue h hb))
  | whole =>
    simp only [step, beq_iff_eq] at h
    split_ifs at h with hdigit hpoint hmark
    · cases h
      exact hb.cons fun _ => AreDigits.cons (isDigit_iff.mp hdigit)
    · cases h
      exact before_of_nil areDigits_nil (hb.cons fun _ => hpoint ▸ .point)
    · cases h
      exact before_of_nil areDigits_nil
        (before_of_nil .none (isExponent_of_mark (isExponentMark_iff.mp hmark) hb))
    · exact before_of_nil areDigits_nil
        (before_of_nil .none (before_of_nil .none (closes_of_afterValue h hb)))
  | point =>
    simp only [step] at h
    split_ifs at h with hdigit
    cases h
    exact hb.cons fun _ => AreDigits.isDigits_cons (isDigit_iff.mp hdigit)
  | fraction =>
    simp only [step] at h
    split_ifs at h with hdigit hmark
    · cases h
      exact hb.cons fun _ => AreDigits.cons (isDigit_iff.mp hdigit)
    · cases h
      exact before_of_nil areDigits_nil (isExponent_of_mark (isExponentMark_iff.mp hmark) hb)
    · exact before_of_nil areDigits_nil (before_of_nil .none (closes_of_afterValue h hb))
  | exponent =>
    simp only [step, Bool.or_eq_true, beq_iff_eq] at h
    split_ifs at h with hsign hdigit <;> cases h
    · refine ⟨[x], b, ?_, hb, rfl⟩
      rcases hsign with rfl | rfl <;> simp [IsSign]
    · exact before_of_nil (.inl rfl)
        (hb.cons fun _ => AreDigits.isDigits_cons (isDigit_iff.mp hdigit))
  | exponentSign =>
    simp only [step] at h
    split_ifs at h with hdigit
    cases h
    exact hb.cons fun _ => AreDigits.isDigits_cons (isDigit_iff.mp hdigit)
  | power =>
    simp only [step] at h
    split_ifs at h with hdigit
    · cases h
      exact hb.cons fun _ => AreDigits.cons (isDigit_iff.mp hdigit)
    · exact before_of_nil areDigits_nil (closes_of_afterValue h hb)
  | text isName =>
    simp only [step, beq_iff_eq] at h
    split_ifs at h with hquote hslash hlow <;> cases h
    · refine before_of_nil .nil ⟨[x], b, by rw [hquote], ?_, rfl⟩
      cases isName <;> exact hb
    · obtain ⟨_, _, hw, ⟨content, c, hcontent, hc, rfl⟩, rfl⟩ := hb
      rw [hslash]
      cases hw with
      | letter hletter => exact ⟨_, c, .escape hletter hcontent, hc, rfl⟩
      | unicode hh hi hj hk => exact ⟨_, c, .unicode hh hi hj hk hcontent, hc, rfl⟩
    · exact hb.cons fun _ => .plain (UInt8.not_lt.mp hlow) hquote hslash
  | escape isName =>
    simp only [step, beq_iff_eq] at h
    split_ifs at h with hletter hu <;> cases h
    · exact ⟨[x], b, .letter (isSimpleEscape_iff.mp hletter), hb, rfl⟩
    · rw [hu]
      exact hb.cons fun _ => IsEscape.of_areHexDigits
  | unicode isName left =>
    simp only [step] at h
    split_ifs at h with hdigit hlast <;> cases h
    · refine ⟨[x], b, ⟨?_, ?_⟩, hb, rfl⟩
      · rw [List.length_singleton]
        omega
      · simpa using isHexDigit_iff.mp hdigit
    · refine hb.cons fun w hw => ⟨?_, List.forall_mem_cons.mpr ⟨isHexDigit_iff.mp hdigit, hw.2⟩⟩
      rw [List.length_cons, hw.1]
      omega

end Step

/-! ### Whole runs -/

theorem Scan.accepts_nil {s : Scan} (h : s.isComplete = true) : s.Accepts [] := by
  obtain ⟨e, p⟩ := s
  simp only [isComplete, Bool.and_eq_true, List.isEmpty_iff] at h
  obtain ⟨rfl, hp⟩ := h
  have hend : Closes [] [] := .nil isBlank_nil
  cases p with
  | afterValue => exact hend
  | zero => exact before_of_nil .none (before_of_nil .none hend)
  | whole => exact before_of_nil areDigits_nil (before_of_nil .none (before_of_nil .none hend))
  | fraction => exact before_of_nil areDigits_nil (before_of_nil .none hend)
  | power => exact before_of_nil areDigits_nil hend
  | _ => cases hp

/-- Bytes that are read to a complete end follow the state before them. -/
theorem Scan.accepts_of_run : ∀ {b : Bytes} {s t : Scan}, s.run b = some t →
    t.isComplete = true → s.Accepts b := by
  intro b
  induction b with
  | nil =>
    intro s t hrun hcomplete
    cases hrun
    exact accepts_nil hcomplete
  | cons x b ih =>
    intro s t hrun hcomplete
    rw [run, List.foldlM_cons] at hrun
    obtain ⟨u, hstep, hrun⟩ := Option.bind_eq_some_iff.mp hrun
    exact accepts_of_step hstep (ih hrun hcomplete)

/-- **Exactly the values of the grammar are recognised**, with white space around them or not. -/
theorem isJson_iff {b : Bytes} : isJson b = true ↔ ∃ v : Value, v.Spaced b := by
  constructor
  · intro h
    unfold isJson at h
    split at h
    · rename_i s hrun
      obtain ⟨s, _, hs, ⟨w, c, ⟨v, hv⟩, hc, rfl⟩, rfl⟩ := Scan.accepts_of_run hrun h
      cases hc with
      | nil ht => exact ⟨v, hs, hv, ht⟩
    · cases h
  · rintro ⟨v, h⟩
    exact h.isJson

/-- **A result is laid out exactly if it is a JSON value.**  Any other result is shown as it is, and
nothing in it is replaced if it is a text. -/
theorem resultText_exact {b : Bytes} (hb : b ≠ []) :
    (isJson b = true ↔ ∃ v : Value, v.Spaced b) ∧
      ((∃ v : Value, v.Spaced b) → resultText b = some (Layout.ofJson (Text.decodeLossy b))) ∧
      ((¬ ∃ v : Value, v.Spaced b) → resultText b = some (Text.decodeLossy b) ∧
        ∀ s, Text.decodeUtf8? b = some s → resultText b = some s) := by
  have hempty : b.isEmpty = false := List.isEmpty_eq_false_iff.mpr hb
  refine ⟨isJson_iff, ?_, ?_⟩
  · intro h
    have hjson := isJson_iff.mpr h
    simp [resultText, hempty, hjson]
  · intro h
    have hraw : resultText b = some (Text.decodeLossy b) := by
      simp [resultText, hempty, mt isJson_iff.mp h]
    refine ⟨hraw, fun s hs => ?_⟩
    rw [hraw, Text.decodeUtf8?_eq_some_iff.mp hs, Text.decodeLossy_encodeUtf8]

/-- An array of an empty object and a text that is no UTF-8. -/
def arrayBytes : Bytes := [0x0A, 0x5B, 0x7B, 0x20, 0x7D, 0x2C, 0x22, 0xFF, 0x22, 0x5D]

/-- The same with a comma behind the last item. -/
def trailingComma : Bytes := [0x5B, 0x7B, 0x7D, 0x2C, 0x5D]

theorem resultText_arrayBytes_trailingComma :
    (arrayBytes ≠ [] ∧ (∃ v : Value, v.Spaced arrayBytes) ∧
      resultText arrayBytes = some "[\n  \x7b\x7d,\n  \"\uFFFD\"\n]") ∧
    (trailingComma ≠ [] ∧ (¬ ∃ v : Value, v.Spaced trailingComma) ∧
      resultText trailingComma = some "[\x7b\x7d,]") := by
  obtain ⟨hjson, hlaid, -⟩ := resultText_exact (b := arrayBytes) (by decide)
  obtain ⟨hjson', -, hraw⟩ := resultText_exact (b := trailingComma) (by decide)
  have hvalue : ∃ v : Value, v.Spaced arrayBytes := hjson.mp (by decide)
  have hnone : ¬ ∃ v : Value, v.Spaced trailingComma := fun h => absurd (hjson'.mpr h) (by decide)
  have htext : Text.decodeUtf8? trailingComma = some "[\x7b\x7d,]" := by decide +kernel
  have hlayout : Layout.ofJson (Text.decodeLossy arrayBytes) =
      "[\n  \x7b\x7d,\n  \"\uFFFD\"\n]" := by decide +kernel
  refine ⟨⟨by decide, hvalue, ?_⟩, ⟨by decide, hnone, (hraw hnone).2 _ htext⟩⟩
  rw [hlaid hvalue, hlayout]

end LedgerGateway.Json
