import LedgerGateway.ResultText
import LedgerGateway.Proofs.Json.Lookahead
import LedgerGateway.Proofs.Json.Recognition
import LedgerGateway.Proofs.Text.Lossy

/-!
# What is written is printed as its tree

The layout goes through a JSON text by its characters alone, with a depth and two flags to remember.
`Value.pretty` goes down the tree.  On everything that the grammar writes for a value the two agree.

This is shown for the lazy layout, for which a text can be cut.  Every token of JSON begins with an
ASCII byte, so the text of the bytes can be followed token by token (`LazyLayout.read_append`).  The
invariant is that a value which is read outside texts, at any depth and behind anything, adds its
own text and changes nothing else (`Value.Written.read`).  Inside a text the bytes are copied
(`LazyLayout.read_unfinished`): what looks like a bracket, a comma or a quote there is never met
outside the text.
-/

namespace LedgerGateway.Json

namespace LazyLayout

/-! ### Reading bytes -/

/-- Lays out the text of bytes. -/
def read (l : LazyLayout) (b : Bytes) : LazyLayout :=
  (Text.decodeLossy b).toList.foldl step l

variable {w : String} {d : Nat} {x : UInt8} {b : Bytes}

theorem read_nil (l : LazyLayout) : l.read [] = l := by
  rw [read, Text.decodeLossy_nil]
  rfl

theorem read_append (l : LazyLayout) (a : Bytes) (hb : Text.StartsAscii b) :
    l.read (a ++ b) = (l.read a).read b := by
  rw [read, Text.decodeLossy_append a hb, String.toList_append, List.foldl_append]
  rfl

theorem read_cons (l : LazyLayout) (hx : x < 0x80) (b : Bytes) :
    l.read (x :: b) = (l.step (Char.ofNat x.toNat)).read b := by
  rw [read, Text.decodeLossy_cons_of_ascii hx, String.toList_append, List.foldl_append,
    String.toList_singleton]
  rfl

/-! ### Characters -/

theorem isSpace_ofNat (hx : x < 0x80) :
    Layout.isSpace (Char.ofNat x.toNat) = true ↔ IsSpace x := by
  simp [Layout.isSpace, IsSpace, ← Char.toNat_inj, Text.toNat_ofNat_of_ascii hx,
    ← UInt8.toNat_inj, or_assoc]

theorem isClosing_ofNat (hx : x < 0x80) :
    Layout.isClosing (Char.ofNat x.toNat) = true ↔ x = 0x5D ∨ x = 0x7D := by
  simp [Layout.isClosing, ← Char.toNat_inj, Text.toNat_ofNat_of_ascii hx, ← UInt8.toNat_inj]

theorem IsSpace.ascii (hx : IsSpace x) : x < 0x80 := by
  rcases hx with rfl | rfl | rfl | rfl <;> decide

/-! ### Lines -/

theorem toList_lineBreak (d : Nat) :
    (lineBreak d).toList = '\n' :: List.replicate (2 * d) ' ' := by
  have hspaces : (List.replicate d "  ").flatMap String.toList = List.replicate (2 * d) ' ' := by
    induction d with
    | zero => rfl
    | succ d ih =>
      rw [List.replicate_succ, List.flatMap_cons, ih]
      rfl
  rw [lineBreak, String.toList_append, String.toList_join, hspaces]
  rfl

theorem toList_repeat_append (s w : String) (n : Nat) :
    (n.repeat (· ++ s) w).toList = w.toList ++ (List.replicate n s).flatMap String.toList := by
  induction n with
  | zero => simp [Nat.repeat]
  | succ n ih =>
    rw [Nat.repeat, String.toList_append, ih, List.replicate_succ', List.flatMap_append,
      List.append_assoc, List.flatMap_singleton]

theorem newLine_eq (l : Layout) :
    l.newLine = { l with written := l.written ++ lineBreak l.depth } := by
  have hwritten : l.depth.repeat (· ++ "  ") (l.written.push '\n') =
      l.written ++ lineBreak l.depth := by
    rw [← String.toList_inj, toList_repeat_append, String.toList_push, String.toList_append,
      lineBreak, String.toList_append, String.toList_join, List.append_assoc]
    rfl
  rw [Layout.newLine, hwritten]

/-! ### White space -/

theorem read_blank {m : Mode} (hm : m = .plain ∨ m = .opened) (hb : IsBlank b) (c : Bytes) :
    read ⟨w, d, m⟩ (b ++ c) = read ⟨w, d, m⟩ c := by
  induction b with
  | nil => rfl
  | cons x b ih =>
    have hx : IsSpace x := hb x List.mem_cons_self
    have hspace := (isSpace_ofNat (IsSpace.ascii hx)).mpr hx
    rw [List.cons_append, read_cons _ (IsSpace.ascii hx), step_space hm hspace]
    exact ih fun y hy => hb y (List.mem_cons_of_mem x hy)

theorem read_of_isBlank {m : Mode} (hm : m = .plain ∨ m = .opened) (hb : IsBlank b) :
    read ⟨w, d, m⟩ b = ⟨w, d, m⟩ := by
  have hread := read_blank (w := w) (d := d) hm hb []
  rwa [List.append_nil, read_nil] at hread

/-- Behind an opening bracket the first line of what is in the container is begun. -/
theorem read_opened (hx : BeginsValue x) (b : Bytes) :
    read ⟨w, d, .opened⟩ (x :: b) = read ⟨w ++ lineBreak (d + 1), d + 1, .plain⟩ (x :: b) := by
  obtain ⟨hascii, hspace, harray, hobject⟩ := hx
  have hspace' : Layout.isSpace (Char.ofNat x.toNat) = false := by
    rw [← Bool.not_eq_true, isSpace_ofNat hascii]
    exact hspace
  have hclosing : Layout.isClosing (Char.ofNat x.toNat) = false := by
    rw [← Bool.not_eq_true, isClosing_ofNat hascii]
    exact not_or.mpr ⟨harray, hobject⟩
  have hsettled : IsSettled ⟨w, d, .opened⟩ [Char.ofNat x.toNat] := by
    rintro _ y ⟨⟩
    exact ⟨hspace', hclosing⟩
  have hstep : step ⟨w, d, .opened⟩ (Char.ofNat x.toNat) =
      step ⟨w ++ lineBreak (d + 1), d + 1, .plain⟩ (Char.ofNat x.toNat) := by
    rw [hsettled.step_eq, layout, Layout.indent, newLine_eq]
    rfl
  rw [read_cons _ hascii, read_cons _ hascii, hstep]

/-- What comes first in a container is read in the first line of it. -/
theorem read_first (hb : ∃ s x rest, b = s ++ x :: rest ∧ IsBlank s ∧ BeginsValue x) :
    read ⟨w, d, .opened⟩ b = read ⟨w ++ lineBreak (d + 1), d + 1, .plain⟩ b := by
  obtain ⟨s, x, rest, rfl, hs, hx⟩ := hb
  rw [read_blank (.inr rfl) hs, read_blank (.inl rfl) hs, read_opened hx]

/-! ### Numbers and words -/

/-- A byte that outside texts is copied. -/
def IsCopied (x : UInt8) : Prop :=
  x < 0x80 ∧ ¬ IsSpace x ∧ x ≠ 0x22 ∧ x ≠ 0x5B ∧ x ≠ 0x7B ∧ x ≠ 0x5D ∧ x ≠ 0x7D ∧ x ≠ 0x2C ∧
    x ≠ 0x3A

instance : DecidablePred IsCopied := fun _ => inferInstanceAs (Decidable (_ ∧ _))

theorem step_of_isCopied (hx : IsCopied x) :
    step ⟨w, d, .plain⟩ (Char.ofNat x.toNat) = ⟨w.push (Char.ofNat x.toNat), d, .plain⟩ := by
  obtain ⟨hascii, hspace, hx⟩ := hx
  have hspace' : Layout.isSpace (Char.ofNat x.toNat) = false := by
    rw [← Bool.not_eq_true, isSpace_ofNat hascii]
    exact hspace
  simp_all [step, layout, token, Layout.step, Layout.isOpening, Layout.isClosing, Layout.put,
    ofLayout, ← Char.toNat_inj,
    Text.toNat_ofNat_of_ascii hascii, ← UInt8.toNat_inj]

def IsWord (b : Bytes) : Prop := ∀ x ∈ b, IsCopied x

instance : DecidablePred IsWord := fun b => List.decidableBAll IsCopied b

theorem read_of_isWord (hb : IsWord b) :
    read ⟨w, d, .plain⟩ b = ⟨w ++ Text.decodeLossy b, d, .plain⟩ := by
  induction b generalizing w with
  | nil => rw [read_nil, Text.decodeLossy_nil, String.append_empty]
  | cons x b ih =>
    have hx := hb x List.mem_cons_self
    rw [read_cons _ hx.1, step_of_isCopied hx, ih fun y hy => hb y (List.mem_cons_of_mem x hy),
      Text.decodeLossy_cons_of_ascii hx.1, String.push_eq_append, String.append_assoc]

/-- A word is shown as the characters it is made of. -/
theorem read_word (hb : IsWord b) : read ⟨w, d, .plain⟩ b =
    ⟨w ++ String.ofList (b.map fun x => Char.ofNat x.toNat), d, .plain⟩ := by
  rw [read_of_isWord hb, Text.decodeLossy_of_ascii fun x hx => (hb x hx).1]

theorem isCopied_of_isDigit (hx : IsDigit x) : IsCopied x := by
  grind [IsDigit, IsCopied, IsSpace]

theorem isWord_of_isNumber (hb : IsNumber b) : IsWord b := by
  obtain ⟨hminus, hwhole, hfraction, hexponent⟩ := hb
  intro x hx
  simp only [List.mem_append] at hx
  rcases hx with hx | hx | hx | hx
  · rcases hminus with rfl | rfl
    · cases hx
    · rw [List.mem_singleton.mp hx]
      decide
  · cases hwhole with
    | zero =>
      rw [List.mem_singleton.mp hx]
      decide
    | digits hfirst hrest =>
      rcases List.mem_cons.mp hx with rfl | hx
      · exact isCopied_of_isDigit hfirst.isDigit
      · exact isCopied_of_isDigit (hrest x hx)
  · cases hfraction with
    | none => cases hx
    | point hdigits =>
      rcases List.mem_cons.mp hx with rfl | hx
      · decide
      · exact isCopied_of_isDigit (hdigits.2 x hx)
  · cases hexponent with
    | none => cases hx
    | mark hmark hsign hdigits =>
      rcases List.mem_cons.mp hx with rfl | hx
      · rcases hmark with rfl | rfl <;> decide
      · rcases List.mem_append.mp hx with hx | hx
        · rcases hsign with rfl | rfl | rfl
          · cases hx
          · rw [List.mem_singleton.mp hx]
            decide
          · rw [List.mem_singleton.mp hx]
            decide
        · exact isCopied_of_isDigit (hdigits.2 x hx)

/-! ### Texts -/

/-- Bytes outside ASCII make no difference to what may stand in a text. -/
theorem isContent_append_iff {taken : Bytes} (htaken : Text.IsHigh taken) :
    IsContent (taken ++ b) ↔ IsContent b := by
  induction taken with
  | nil => rfl
  | cons x taken ih =>
    obtain ⟨hx, htaken⟩ := List.forall_mem_cons.mp htaken
    rw [← ih htaken, List.cons_append]
    generalize taken ++ b = rest
    constructor
    · intro h
      cases h with
      | plain _ _ _ h => exact h
      | escape _ _ => exact absurd (by decide) hx
      | unicode _ _ _ _ _ => exact absurd (by decide) hx
    · intro h
      have hplain : 0x20 ≤ x ∧ x ≠ 0x22 ∧ x ≠ 0x5C := by grind
      exact .plain hplain.1 hplain.2.1 hplain.2.2 h

theorem read_cons_lossy (l : LazyLayout) (x : UInt8) (b : Bytes) :
    l.read (x :: b) = (l.step (Text.nextLossy x b).1).read (Text.nextLossy x b).2 := by
  rw [read, Text.decodeLossy_cons, String.toList_append, List.foldl_append,
    String.toList_singleton]
  rfl

theorem step_text {c : Char} (hquote : c ≠ '"') (hslash : c ≠ '\\') :
    step ⟨w, d, .text⟩ c = ⟨w.push c, d, .text⟩ := by
  simp [step, layout, token, Layout.step, Layout.copy, Layout.put, ofLayout, hquote, hslash]

theorem step_text_of_ascii (hx : x < 0x80) (hquote : x ≠ 0x22) (hslash : x ≠ 0x5C) :
    step ⟨w, d, .text⟩ (Char.ofNat x.toNat) = ⟨w.push (Char.ofNat x.toNat), d, .text⟩ := by
  apply step_text
  · simpa [← Char.toNat_inj, Text.toNat_ofNat_of_ascii hx, ← UInt8.toNat_inj] using hquote
  · simpa [← Char.toNat_inj, Text.toNat_ofNat_of_ascii hx, ← UInt8.toNat_inj] using hslash

theorem step_text_of_not_ascii (hx : ¬ x < 0x80) (b : Bytes) :
    step ⟨w, d, .text⟩ (Text.nextLossy x b).1 = ⟨w.push (Text.nextLossy x b).1, d, .text⟩ := by
  have hc := Text.nextLossy_not_ascii hx b
  apply step_text
  · intro h
    rw [h] at hc
    exact absurd hc (by decide)
  · intro h
    rw [h] at hc
    exact absurd hc (by decide)

theorem ascii_of_mem_escapeLetters (hx : x ∈ escapeLetters) : x < 0x80 := by
  simp only [escapeLetters, List.mem_cons, List.not_mem_nil, or_false] at hx
  rcases hx with rfl | rfl | rfl | rfl | rfl | rfl | rfl | rfl <;> decide

end LazyLayout

/-! ### Backslashes -/

section Backslashes

variable {x : UInt8} {b c : Bytes}

/-- How many backslashes stand at the end. -/
def trailingBackslashes (b : Bytes) : Nat := (b.reverse.takeWhile (· == 0x5C)).length

/-- The last byte is a backslash that is not escaped by one before it. -/
def EndsUnpaired (b : Bytes) : Prop := trailingBackslashes b % 2 = 1

instance : DecidablePred EndsUnpaired := fun b =>
  inferInstanceAs (Decidable (trailingBackslashes b % 2 = 1))

theorem trailingBackslashes_le (b : Bytes) : trailingBackslashes b ≤ b.length := by
  rw [← List.length_reverse]
  exact (List.takeWhile_sublist _).length_le

theorem trailingBackslashes_cons (x : UInt8) (b : Bytes) : trailingBackslashes (x :: b) =
    if trailingBackslashes b = b.length ∧ x = 0x5C then b.length + 1
    else trailingBackslashes b := by
  rw [trailingBackslashes, List.reverse_cons, List.takeWhile_append, List.length_reverse,
    ← trailingBackslashes]
  by_cases hall : trailingBackslashes b = b.length
  · by_cases hx : x = 0x5C <;> simp [hall, hx]
  · rw [if_neg hall, if_neg fun h => hall h.1]
    rfl

theorem not_endsUnpaired_nil : ¬ EndsUnpaired [] := by decide

theorem endsUnpaired_cons (hx : x ≠ 0x5C) : EndsUnpaired (x :: b) ↔ EndsUnpaired b := by
  rw [EndsUnpaired, trailingBackslashes_cons, if_neg fun h => hx h.2, EndsUnpaired]

/-- A backslash and the byte it escapes make no difference to what is behind them. -/
theorem endsUnpaired_pair (x : UInt8) (b : Bytes) :
    EndsUnpaired (0x5C :: x :: b) ↔ EndsUnpaired b := by
  have hle := trailingBackslashes_le b
  rw [EndsUnpaired, trailingBackslashes_cons, trailingBackslashes_cons, EndsUnpaired,
    List.length_cons]
  by_cases hall : trailingBackslashes b = b.length ∧ x = 0x5C
  · rw [if_pos hall, if_pos ⟨rfl, rfl⟩]
    omega
  · rw [if_neg hall, if_neg fun h => by omega]

theorem endsUnpaired_high {taken : Bytes} (htaken : Text.IsHigh taken) :
    EndsUnpaired (taken ++ b) ↔ EndsUnpaired b := by
  induction taken with
  | nil => rfl
  | cons x taken ih =>
    obtain ⟨hx, htaken⟩ := List.forall_mem_cons.mp htaken
    have hne : x ≠ 0x5C := fun h => hx (h ▸ by decide)
    rw [List.cons_append, endsUnpaired_cons hne, ih htaken]

/-- The bytes that a character takes with it make no difference to what is behind them. -/
theorem unfinished_nextLossy (x : UInt8) (h : IsContent (b ++ c)) :
    IsContent ((Text.nextLossy x b).2 ++ c) ∧
      (EndsUnpaired (Text.nextLossy x b).2 ↔ EndsUnpaired b) := by
  obtain ⟨taken, htaken, hhigh⟩ := Text.exists_nextLossy x b
  constructor
  · rw [htaken, List.append_assoc] at h
    exact (LazyLayout.isContent_append_iff hhigh).mp h
  · have hends := endsUnpaired_high (b := (Text.nextLossy x b).2) hhigh
    rwa [← htaken, iff_comm] at hends

theorem IsContent.cons_hexDigit (hb : IsContent b) (hx : IsHexDigit x) : IsContent (x :: b) := by
  have hplain : 0x20 ≤ x ∧ x ≠ 0x22 ∧ x ≠ 0x5C := by grind [IsHexDigit, IsDigit]
  exact .plain hplain.1 hplain.2.1 hplain.2.2 hb

/-- What stands in a text begins with a byte that stands for itself, or with a backslash and the
byte it escapes. -/
theorem IsContent.cons_cases (h : IsContent (x :: b)) :
    (x ≠ 0x22 ∧ x ≠ 0x5C ∧ IsContent b) ∨
      x = 0x5C ∧ ∃ y c, b = y :: c ∧ y < 0x80 ∧ IsContent c := by
  cases h with
  | plain _ hquote hslash hb => exact .inl ⟨hquote, hslash, hb⟩
  | escape hx hb => exact .inr ⟨rfl, _, _, rfl, LazyLayout.ascii_of_mem_escapeLetters hx, hb⟩
  | unicode hh hi hj hk hb =>
    have hdigits := (((hb.cons_hexDigit hk).cons_hexDigit hj).cons_hexDigit hi).cons_hexDigit hh
    exact .inr ⟨rfl, _, _, rfl, by decide, hdigits⟩

/-- At the end of a text no backslash is left without its partner. -/
theorem IsContent.not_endsUnpaired (h : IsContent b) : ¬ EndsUnpaired b := by
  induction hn : b.length using Nat.strong_induction_on generalizing b with
  | _ n ih =>
    subst hn
    cases b with
    | nil => exact not_endsUnpaired_nil
    | cons x b =>
      rcases h.cons_cases with ⟨-, hslash, hb⟩ | ⟨rfl, y, c, rfl, -, hc⟩
      · rw [endsUnpaired_cons hslash]
        exact ih _ (by simp) hb rfl
      · rw [endsUnpaired_pair]
        exact ih _ (by simp only [List.length_cons]; omega) hc rfl

end Backslashes

/-! ### Inside a text -/

namespace LazyLayout

variable {w : String} {d : Nat} {x : UInt8} {b c : Bytes}

/-- **Inside a text all is copied**, however much of it is there, and the layout is behind a
backslash exactly if the last one has no partner.  The induction is on the length, as a character
takes several bytes. -/
theorem read_unfinished : ∀ {b c : Bytes}, IsContent (b ++ c) → ∀ w : String,
    read ⟨w, d, .text⟩ b =
      ⟨w ++ Text.decodeLossy b, d, if EndsUnpaired b then .escaped else .text⟩ := by
  intro b
  induction hn : b.length using Nat.strong_induction_on generalizing b with
  | _ n ih =>
    subst hn
    intro c h w
    cases b with
    | nil => rw [read_nil, Text.decodeLossy_nil, String.append_empty, if_neg not_endsUnpaired_nil]
    | cons x b =>
      rcases IsContent.cons_cases h with ⟨hquote, hslash, hb⟩ | ⟨rfl, y, c', hc', hy, hb⟩
      · simp only [endsUnpaired_cons hslash]
        by_cases hx : x < 0x80
        · rw [read_cons _ hx, step_text_of_ascii hx hquote hslash, ih _ (by simp) rfl hb,
            Text.decodeLossy_cons_of_ascii hx, String.push_eq_append, String.append_assoc]
        · obtain ⟨hrest, hends⟩ := unfinished_nextLossy x hb
          have hlt : (Text.nextLossy x b).2.length < (x :: b).length :=
            Nat.lt_succ_of_le (Text.length_nextLossy x b)
          rw [read_cons_lossy, step_text_of_not_ascii hx, ih _ hlt rfl hrest,
            Text.decodeLossy_cons, String.push_eq_append, String.append_assoc]
          simp only [hends]
      · cases b with
        | nil =>
          rw [read_cons _ (by decide), read_nil, Text.decodeLossy_cons_of_ascii (by decide),
            Text.decodeLossy_nil, String.append_empty, if_pos (by decide)]
          rfl
        | cons z b =>
          obtain ⟨rfl, rfl⟩ := List.cons.inj hc'
          have hlt : b.length < (0x5C :: z :: b).length := by simp only [List.length_cons]; omega
          have hslash : step ⟨w, d, .text⟩ (Char.ofNat (0x5C : UInt8).toNat) =
              ⟨w.push '\\', d, .escaped⟩ := rfl
          have hletter : step ⟨w.push '\\', d, .escaped⟩ (Char.ofNat z.toNat) =
              ⟨(w.push '\\').push (Char.ofNat z.toNat), d, .text⟩ := rfl
          rw [read_cons _ (by decide), hslash, read_cons _ hy, hletter, ih _ hlt rfl hb,
            Text.decodeLossy_cons_of_ascii (by decide), Text.decodeLossy_cons_of_ascii hy]
          simp only [endsUnpaired_pair, String.push_eq_append, String.append_assoc]
          rfl

/-- The whole content of a text is copied. -/
theorem read_content (hb : IsContent b) (w : String) :
    read ⟨w, d, .text⟩ b = ⟨w ++ Text.decodeLossy b, d, .text⟩ := by
  rw [read_unfinished (c := []) (by rwa [List.append_nil]), if_neg hb.not_endsUnpaired]

theorem read_quoted (t : TextLiteral) (w : String) :
    read ⟨w, d, .plain⟩ t.quoted = ⟨w ++ t.shown, d, .plain⟩ := by
  have hopen : step ⟨w, d, .plain⟩ (Char.ofNat (0x22 : UInt8).toNat) =
      ⟨w.push '"', d, .text⟩ := rfl
  have hclose : ∀ v : String, step ⟨v, d, .text⟩ (Char.ofNat (0x22 : UInt8).toNat) =
      ⟨v.push '"', d, .plain⟩ := fun _ => rfl
  rw [TextLiteral.quoted, read_cons _ (by decide), hopen,
    read_append _ _ (Text.startsAscii_cons (by decide) _), read_content t.isContent,
    read_cons _ (by decide), hclose, read_nil, TextLiteral.shown]
  simp only [String.push_eq_append, String.append_assoc]
  rfl

/-! ### Containers -/

theorem startsAscii_blank {s : Bytes} (hs : IsBlank s) (hb : Text.StartsAscii b) :
    Text.StartsAscii (s ++ b) := by
  cases s with
  | nil => exact hb
  | cons x s => exact Text.startsAscii_cons (IsSpace.ascii (hs x List.mem_cons_self)) _

theorem startsAscii_of_isBlank {s : Bytes} (hs : IsBlank s) : Text.StartsAscii s := by
  have hstarts := startsAscii_blank hs Text.startsAscii_nil
  rwa [List.append_nil] at hstarts

/-- Behind an opening bracket nothing is decided yet. -/
theorem read_opening (hx : x = 0x5B ∨ x = 0x7B) (w : String) (b : Bytes) :
    read ⟨w, d, .plain⟩ (x :: b) = read ⟨w.push (Char.ofNat x.toNat), d, .opened⟩ b := by
  rcases hx with rfl | rfl
  · exact read_cons _ (by decide) b
  · exact read_cons _ (by decide) b

/-- A container with nothing in it stays on its line. -/
theorem read_empty {o c : UInt8} (ho : o = 0x5B ∨ o = 0x7B) (hc : c = 0x5D ∨ c = 0x7D)
    {s : Bytes} (hs : IsBlank s) (w : String) :
    read ⟨w, d, .plain⟩ (o :: (s ++ [c])) =
      ⟨w ++ (String.singleton (Char.ofNat o.toNat) ++ String.singleton (Char.ofNat c.toNat)),
        d, .plain⟩ := by
  have hclose : c < 0x80 ∧ ∀ v : String, step ⟨v, d, .opened⟩ (Char.ofNat c.toNat) =
      ⟨v.push (Char.ofNat c.toNat), d, .plain⟩ := by
    rcases hc with rfl | rfl
    · exact ⟨by decide, fun _ => rfl⟩
    · exact ⟨by decide, fun _ => rfl⟩
  rw [read_opening ho, read_blank (.inr rfl) hs, read_cons _ hclose.1, hclose.2,
    read_nil]
  simp only [String.push_eq_append, String.append_assoc]

/-- A container with something in it, when it is known how that is read one level deeper. -/
theorem read_container {o c : UInt8} (ho : o = 0x5B ∨ o = 0x7B) (hc : c = 0x5D ∨ c = 0x7D)
    (hhead : ∃ s x rest, b = s ++ x :: rest ∧ IsBlank s ∧ BeginsValue x) {inside : String}
    (hread : ∀ w : String, read ⟨w, d + 1, .plain⟩ b = ⟨w ++ inside, d + 1, .plain⟩) (w : String) :
    read ⟨w, d, .plain⟩ (o :: (b ++ [c])) =
      ⟨w ++ (String.singleton (Char.ofNat o.toNat) ++ lineBreak (d + 1) ++ inside ++ lineBreak d ++
        String.singleton (Char.ofNat c.toNat)), d, .plain⟩ := by
  have hclose : c < 0x80 ∧ ∀ v : String, step ⟨v, d + 1, .plain⟩ (Char.ofNat c.toNat) =
      ⟨(v ++ lineBreak d).push (Char.ofNat c.toNat), d, .plain⟩ := by
    rcases hc with rfl | rfl
    · exact ⟨by decide, fun v => congrArg (ofLayout <| Layout.put · _) (newLine_eq ⟨v, d, _, _⟩)⟩
    · exact ⟨by decide, fun v => congrArg (ofLayout <| Layout.put · _) (newLine_eq ⟨v, d, _, _⟩)⟩
  have hfirst : ∀ v : String, read ⟨v, d, .opened⟩ (b ++ [c]) =
      read ⟨v ++ lineBreak (d + 1), d + 1, .plain⟩ (b ++ [c]) := by
    intro v
    obtain ⟨s, x, rest, rfl, hs, hx⟩ := hhead
    exact read_first ⟨s, x, rest ++ [c], List.append_assoc _ _ _, hs, hx⟩
  rw [read_opening ho, hfirst, read_append _ _ (Text.startsAscii_cons hclose.1 _),
    hread, read_cons _ hclose.1, hclose.2, read_nil]
  simp only [String.push_eq_append, String.append_assoc]

end LazyLayout

/-! ### Values -/

open LazyLayout

theorem container_of_ne_nil {opening closing : String} {depth : Nat} {lines : List String}
    (h : lines ≠ []) : container opening closing depth lines =
      opening ++ lineBreak (depth + 1) ++
        String.intercalate ("," ++ lineBreak (depth + 1)) lines ++ lineBreak depth ++ closing := by
  cases lines with
  | nil => exact absurd rfl h
  | cons _ _ => rfl

theorem ItemsWritten.pretty_ne_nil {items : List Value} {b : Bytes} (h : ItemsWritten items b)
    (d : Nat) : prettyItems items d ≠ [] := by
  cases h <;> simp [prettyItems]

theorem MembersWritten.pretty_ne_nil {members : List (TextLiteral × Value)} {b : Bytes}
    (h : MembersWritten members b) (d : Nat) : prettyMembers members d ≠ [] := by
  cases h <;> simp [prettyMembers]

/-- A comma ends the line. -/
theorem read_comma (w : String) (d : Nat) (b : Bytes) :
    read ⟨w, d, .plain⟩ (0x2C :: b) = read ⟨w ++ ("," ++ lineBreak d), d, .plain⟩ b := by
  have hstep : step ⟨w, d, .plain⟩ (Char.ofNat (0x2C : UInt8).toNat) =
      ofLayout (Layout.newLine ⟨w.push ',', d, false, false⟩) := rfl
  rw [read_cons _ (by decide), hstep, newLine_eq, String.push_eq_append, String.append_assoc]
  rfl

/-- The name of a member, and the colon with a space behind it. -/
theorem read_name (name : TextLiteral) {s t b : Bytes} (hs : IsBlank s) (ht : IsBlank t)
    (w : String) (d : Nat) :
    read ⟨w, d, .plain⟩ (s ++ (name.quoted ++ (t ++ 0x3A :: b))) =
      read ⟨w ++ (name.shown ++ ": "), d, .plain⟩ b := by
  have hcolon : ∀ v : String, step ⟨v, d, .plain⟩ (Char.ofNat (0x3A : UInt8).toNat) =
      ⟨(v.push ':').push ' ', d, .plain⟩ := fun _ => rfl
  have hstarts := startsAscii_blank ht (Text.startsAscii_cons (x := 0x3A) (by decide) b)
  rw [read_blank (.inl rfl) hs, read_append _ _ hstarts, read_quoted, read_blank (.inl rfl) ht,
    read_cons _ (by decide), hcolon]
  simp only [String.push_eq_append, String.append_assoc]
  rfl

mutual

/-- **A value adds its text, whatever stands before it.** -/
theorem Value.Written.read : ∀ {v : Value} {b : Bytes}, v.Written b → ∀ (w : String) (d : Nat),
    LazyLayout.read ⟨w, d, .plain⟩ b = ⟨w ++ v.pretty d, d, .plain⟩
  | _, _, .null, w, d => by
    rw [read_word (by decide), Value.pretty]
    rfl
  | _, _, .true, w, d => by
    rw [read_word (by decide), Value.pretty]
    rfl
  | _, _, .false, w, d => by
    rw [read_word (by decide), Value.pretty]
    rfl
  | _, _, .number n, w, d => by
    rw [read_word (isWord_of_isNumber n.isNumber), Value.pretty, NumberLiteral.shown]
  | _, _, .text t, w, d => by
    rw [read_quoted, Value.pretty]
  | _, _, .emptyArray hs, w, d => by
    rw [read_empty (.inl rfl) (.inl rfl) hs, Value.pretty, prettyItems]
    rfl
  | _, _, .array hitems, w, d => by
    rw [read_container (.inl rfl) (.inl rfl) hitems.head fun w => hitems.read w (d + 1),
      Value.pretty, container_of_ne_nil (hitems.pretty_ne_nil _)]
    rfl
  | _, _, .emptyObject hs, w, d => by
    rw [read_empty (.inr rfl) (.inr rfl) hs, Value.pretty, prettyMembers]
    rfl
  | _, _, .object hmembers, w, d => by
    obtain ⟨s, rest, hb, hs⟩ := hmembers.head
    rw [read_container (.inr rfl) (.inr rfl) ⟨s, 0x22, rest, hb, hs, by decide⟩
        fun w => hmembers.read w (d + 1),
      Value.pretty, container_of_ne_nil (hmembers.pretty_ne_nil _)]
    rfl

theorem Value.Spaced.read : ∀ {v : Value} {b : Bytes}, v.Spaced b → ∀ (w : String) (d : Nat),
    LazyLayout.read ⟨w, d, .plain⟩ b = ⟨w ++ v.pretty d, d, .plain⟩
  | v, _, .intro hs hv ht, w, d => by
    rw [read_blank (.inl rfl) hs, read_append _ _ (startsAscii_of_isBlank ht), hv.read,
      read_of_isBlank (.inl rfl) ht]

theorem ItemsWritten.read : ∀ {items : List Value} {b : Bytes}, ItemsWritten items b →
    ∀ (w : String) (d : Nat), LazyLayout.read ⟨w, d, .plain⟩ b =
      ⟨w ++ String.intercalate ("," ++ lineBreak d) (prettyItems items d), d, .plain⟩
  | _, _, .last hv, w, d => by
    rw [hv.read, prettyItems, prettyItems, String.intercalate_singleton]
  | _, _, .more hv hitems, w, d => by
    rw [read_append _ _ (Text.startsAscii_cons (by decide) _), hv.read, read_comma, hitems.read,
      prettyItems, String.intercalate_cons_of_ne_nil (hitems.pretty_ne_nil d)]
    simp only [String.append_assoc]

theorem MembersWritten.read : ∀ {members : List (TextLiteral × Value)} {b : Bytes},
    MembersWritten members b → ∀ (w : String) (d : Nat), LazyLayout.read ⟨w, d, .plain⟩ b =
      ⟨w ++ String.intercalate ("," ++ lineBreak d) (prettyMembers members d), d, .plain⟩
  | _, _, .last hs ht hv, w, d => by
    rw [read_name _ hs ht, hv.read, prettyMembers, prettyMembers, String.intercalate_singleton]
    simp only [String.append_assoc]
  | _, _, .more hs ht hv hmembers, w, d => by
    rw [read_name _ hs ht, read_append _ _ (Text.startsAscii_cons (by decide) _), hv.read,
      read_comma, hmembers.read, prettyMembers,
      String.intercalate_cons_of_ne_nil (hmembers.pretty_ne_nil d)]
    simp only [String.append_assoc]

end

theorem Value.Spaced.ne_nil {v : Value} {b : Bytes} (h : v.Spaced b) : b ≠ [] := by
  obtain ⟨-, hv, -⟩ := h
  obtain ⟨x, rest, rfl, -⟩ := hv.head
  simp

/-- A JSON text is laid out as its tree is printed, and in the end nothing is open. -/
theorem Value.Spaced.run_layout {v : Value} {b : Bytes} (h : v.Spaced b) :
    Layout.start.run (Text.decodeLossy b).toList = ⟨v.pretty 0, 0, false, false⟩ := by
  have hread : after (Text.decodeLossy b).toList = ⟨"" ++ v.pretty 0, 0, .plain⟩ := h.read "" 0
  have hsettled : LazyLayout.start.IsSettled (Text.decodeLossy b).toList := nofun
  have hrun := LazyLayout.run_layout hsettled
  rw [← after, hread, String.empty_append] at hrun
  exact hrun

theorem Value.Spaced.resultText_eq {v : Value} {b : Bytes} (h : v.Spaced b) :
    resultText b = some (v.pretty 0) := by
  have hlayout : Layout.ofJson (Text.decodeLossy b) = v.pretty 0 := by
    rw [Layout.ofJson, h.run_layout]
  have hisEmpty : b.isEmpty = false := List.isEmpty_eq_false_iff.mpr h.ne_nil
  simp [resultText, hisEmpty, h.isJson, hlayout]

/-- **The text of a result that is JSON is the text of its tree.**  It does not depend on where the
white space was. -/
theorem resultText_of_spaced {v : Value} {b : Bytes} (hb : v.Spaced b) :
    resultText b = some (v.pretty 0) ∧ ∀ c : Bytes, v.Spaced c → resultText c = resultText b :=
  ⟨hb.resultText_eq, fun _ hc => hc.resultText_eq.trans hb.resultText_eq.symm⟩

/-- A name that holds an escaped quote, a bracket and a byte that is no character. -/
def sampleName : TextLiteral :=
  ⟨[0x61, 0x5C, 0x22, 0x5B, 0xFF],
    .plain (by decide) (by decide) (by decide) <| .escape (by decide) <|
      .plain (by decide) (by decide) (by decide) <|
      .plain (by decide) (by decide) (by decide) .nil⟩

def sampleNumber : NumberLiteral :=
  ⟨[0x2D] ++ ([0x31] ++ (0x2E :: [0x35, 0x30] ++ (0x65 :: ([0x2B] ++ [0x33])))),
    .intro (.inr rfl) (.digits (by decide) (List.forall_mem_nil _)) (.point (by decide))
      (.mark (.inl rfl) (.inr (.inl rfl)) (by decide))⟩

/-- An object with one name twice. -/
def sampleValue : Value :=
  .object [(sampleName, .array []), (sampleName, .array [.number sampleNumber, .object []])]

def sampleBytes : Bytes :=
  [0x0A, 0x7B, 0x20] ++ sampleName.quoted ++ [0x20, 0x3A, 0x5B, 0x09, 0x5D, 0x2C] ++
    sampleName.quoted ++ [0x3A, 0x5B] ++ sampleNumber.spelling ++
    [0x20, 0x2C, 0x7B, 0x7D, 0x5D, 0x7D, 0x0D]

theorem spaced_sample : sampleValue.Spaced sampleBytes := by
  have hitems : ItemsWritten [.number sampleNumber, .object []] _ :=
    .more (.intro isBlank_nil (.number sampleNumber) (t := [0x20]) (by decide))
      (.last (.intro isBlank_nil (.emptyObject isBlank_nil) isBlank_nil))
  have hmembers : MembersWritten
      [(sampleName, .array []), (sampleName, .array [.number sampleNumber, .object []])] _ :=
    .more (s := [0x20]) (t := [0x20]) (by decide) (by decide)
      (.intro isBlank_nil (.emptyArray (s := [0x09]) (by decide)) isBlank_nil)
      (.last isBlank_nil isBlank_nil (.intro isBlank_nil (.array hitems) isBlank_nil))
  exact .intro (s := [0x0A]) (t := [0x0D]) (by decide) (.object hmembers) (by decide)

theorem resultText_sample :
    sampleValue.Spaced sampleBytes ∧
      resultText sampleBytes = some
        "\x7b\n  \"a\\\"[\uFFFD\": [],\n  \"a\\\"[\uFFFD\": [\n    -1.50e+3,\n    \x7b\x7d\n  ]\n\x7d" := by
  have hpretty : sampleValue.pretty 0 =
      "\x7b\n  \"a\\\"[\uFFFD\": [],\n  \"a\\\"[\uFFFD\": [\n    -1.50e+3,\n    \x7b\x7d\n  ]\n\x7d" := by
    decide +kernel
  refine ⟨spaced_sample, ?_⟩
  rw [(resultText_of_spaced spaced_sample).1, hpretty]

end LedgerGateway.Json
