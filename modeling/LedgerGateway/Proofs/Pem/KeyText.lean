import LedgerGateway.Pem.KeyText
import LedgerGateway.Proofs.Pem.Base64

/-!
# The text of a key is read back

A PEM text of a key has two boundaries that name it, and between them the digits of the key in lines
of 64 (`IsKeyText`).  Every line may end in any of three ways, and the last one need not be ended.
Such a text is read as the key it holds (`IsKeyText.readKeyText_eq`), and what `writeKeyText` writes
is one (`isKeyText_writeKeyText`).

The reader takes ends of lines off from in front and from behind, where a carriage return and a line
feed may count as one end or as two.  It cannot be mistaken because what stands next to an end of a
line is never a carriage return or a line feed (`IsInner`).
-/

namespace LedgerGateway.Pem

variable {label : String} {content digits text line e rest b : Bytes} {x : UInt8}

/-! ### Ends of lines -/

/-- What a line may end with. -/
inductive IsLineEnd : Bytes → Prop
  | lineFeed : IsLineEnd [0x0A]
  | both : IsLineEnd [0x0D, 0x0A]
  | carriageReturn : IsLineEnd [0x0D]

/-- The byte ends no line. -/
def IsInner (x : UInt8) : Prop := x ≠ 0x0A ∧ x ≠ 0x0D

instance (x : UInt8) : Decidable (IsInner x) := inferInstanceAs (Decidable (_ ∧ _))

theorem behindLineEnd?_append (he : IsLineEnd e) (hx : IsInner x) (rest : Bytes) :
    behindLineEnd? (e ++ x :: rest) = some (x :: rest) := by
  cases he with
  | lineFeed => rfl
  | both => rfl
  | carriageReturn => simp [behindLineEnd?, hx.1]

theorem beforeLineEnd?_append (he : IsLineEnd e) (hx : IsInner x) (rest : Bytes) :
    beforeLineEnd? (e.reverse ++ x :: rest) = some (x :: rest) := by
  cases he with
  | lineFeed => simp [beforeLineEnd?, hx.2]
  | both => rfl
  | carriageReturn => rfl

theorem beforeLineEnd?_cons (hx : IsInner x) (rest : Bytes) :
    beforeLineEnd? (x :: rest) = none := by
  simp [beforeLineEnd?, hx.1, hx.2]

/-- Where the last line is ended or not, its end is taken off or nothing is. -/
theorem getD_beforeLineEnd? (he : e = [] ∨ IsLineEnd e) (hx : IsInner x) (rest : Bytes) :
    (beforeLineEnd? (e.reverse ++ x :: rest)).getD (e.reverse ++ x :: rest) = x :: rest := by
  rcases he with rfl | he
  · rw [List.reverse_nil, List.nil_append, beforeLineEnd?_cons hx, Option.getD_none]
  · rw [beforeLineEnd?_append he hx, Option.getD_some]

/-! ### Lines of digits -/

/-- The digits are cut into lines of 64, of which the last may be shorter. -/
inductive IsCut : Bytes → Bytes → Prop
  | last {line e : Bytes} : line ≠ [] → line.length ≤ 64 → IsLineEnd e → IsCut line (line ++ e)
  | line {line e digits text : Bytes} : line.length = 64 → IsLineEnd e → IsCut digits text →
      IsCut (line ++ digits) (line ++ e ++ text)

theorem joinLines_short (hne : line ≠ []) (hlength : line.length ≤ 64) :
    joinLines line = some line := by
  rw [joinLines, if_neg hne, if_pos hlength]

theorem joinLines_line (hlength : line.length = 64) (he : IsLineEnd e) (hx : IsInner x)
    (rest : Bytes) :
    joinLines (line ++ e ++ x :: rest) = (joinLines (x :: rest)).map (line ++ ·) := by
  have hne : line ++ e ++ x :: rest ≠ [] := by simp
  have hlong : ¬ (line ++ e ++ x :: rest).length ≤ 64 := by
    simp only [List.length_append, List.length_cons]
    omega
  have hdrop : (line ++ e ++ x :: rest).drop 64 = e ++ x :: rest := by
    rw [List.append_assoc, ← hlength, List.drop_left]
  have htake : (line ++ e ++ x :: rest).take 64 = line := by
    rw [List.append_assoc, ← hlength, List.take_left]
  have hbehind := behindLineEnd?_append he hx rest
  rw [joinLines, if_neg hne, if_neg hlong, htake]
  split
  · rename_i hnone
    rw [hdrop, hbehind] at hnone
    cases hnone
  · rename_i found hfound
    rw [hdrop, hbehind] at hfound
    cases hfound
    rfl

/-- Without the end of the last line, the lines begin and end with a digit and are joined to the
digits they were cut from. -/
theorem IsCut.exists_joinLines (h : IsCut digits text) (hinner : ∀ x ∈ digits, IsInner x) :
    ∃ front e, text = front ++ e ∧ IsLineEnd e ∧ joinLines front = some digits ∧
      (∃ x rest, IsInner x ∧ front = x :: rest) ∧ ∃ x rest, IsInner x ∧ front = rest ++ [x] := by
  induction h with
  | @last line e hne hlength he =>
    refine ⟨line, e, rfl, he, joinLines_short hne hlength, ?_, ?_⟩
    · obtain ⟨x, rest, rfl⟩ := List.exists_cons_of_ne_nil hne
      exact ⟨x, rest, hinner x List.mem_cons_self, rfl⟩
    · have hlast := List.dropLast_append_getLast hne
      exact ⟨line.getLast hne, line.dropLast, hinner _ (List.getLast_mem hne), hlast.symm⟩
  | @line line e digits text hlength he _ ih =>
    obtain ⟨front, e', rfl, he', hjoin, ⟨x, rest, hx, rfl⟩, y, rest', hy, hlast⟩ :=
      ih fun x hx => hinner x (List.mem_append_right _ hx)
    have hne : line ≠ [] := by
      rintro rfl
      cases hlength
    refine ⟨line ++ e ++ x :: rest, e', by simp, he', ?_, ?_, y, line ++ e ++ rest', hy, ?_⟩
    · rw [joinLines_line hlength he hx, hjoin, Option.map_some]
    · obtain ⟨z, line, rfl⟩ := List.exists_cons_of_ne_nil hne
      exact ⟨z, line ++ e ++ x :: rest, hinner z List.mem_cons_self, rfl⟩
    · rw [hlast, List.append_assoc _ rest', ← List.append_assoc]

theorem IsCut.forall_mem {P : UInt8 → Prop} (h : IsCut digits text) (hdigits : ∀ x ∈ digits, P x)
    (hends : P 0x0A ∧ P 0x0D) : ∀ x ∈ text, P x := by
  have hend : ∀ {e : Bytes}, IsLineEnd e → ∀ x ∈ e, P x := by
    rintro e (_ | _ | _) <;> simp [hends]
  induction h with
  | last _ _ he => exact List.forall_mem_append.mpr ⟨hdigits, hend he⟩
  | line _ he _ ih =>
    obtain ⟨hline, hdigits⟩ := List.forall_mem_append.mp hdigits
    exact List.forall_mem_append.mpr ⟨List.forall_mem_append.mpr ⟨hline, hend he⟩, ih hdigits⟩

theorem isCut_cutLines (digits : Bytes) (hne : digits ≠ []) : IsCut digits (cutLines digits) := by
  fun_induction cutLines digits with
  | case1 digits hlength => exact .last hne hlength .lineFeed
  | case2 digits hlength ih =>
    have hdrop : digits.drop 64 ≠ [] := by
      rw [Ne, List.drop_eq_nil_iff]
      exact hlength
    have htake : (digits.take 64).length = 64 := by
      rw [List.length_take]
      omega
    have h := IsCut.line htake .lineFeed (ih hdrop)
    rwa [List.take_append_drop, List.append_assoc, List.singleton_append] at h

/-! ### Boundaries -/

theorem ascii_append (s t : String) : ascii (s ++ t) = ascii s ++ ascii t := by
  simp [ascii]

theorem behind?_append (s : String) (b : Bytes) : behind? s (ascii s ++ b) = some b :=
  List.isPrefixOf?_eq_some_iff_append_eq.mpr rfl

/-- A text that begins with the boundary has nothing before it. -/
theorem behindPreamble?_begin (b : Bytes) :
    behindPreamble? true (ascii "-----BEGIN " ++ b) = some b := by
  have hbehind := behind?_append "-----BEGIN " b
  obtain ⟨x, rest, hcons⟩ : ∃ x rest, ascii "-----BEGIN " ++ b = x :: rest := ⟨_, _, rfl⟩
  rw [hcons] at hbehind ⊢
  rw [behindPreamble?, if_pos rfl, hbehind]

def isAscii (s : String) : Bool := s.toList.all fun c => c.toNat < 0x80

theorem lt_of_isAscii {s : String} (h : isAscii s = true) {c : Char} (hc : c ∈ s.toList) :
    c.toNat < 0x80 :=
  of_decide_eq_true (List.all_eq_true.mp h c hc)

theorem toNat_ofNat_of_isAscii {s : String} (h : isAscii s = true) {c : Char}
    (hc : c ∈ s.toList) : (UInt8.ofNat c.toNat).toNat = c.toNat :=
  UInt8.toNat_ofNat_of_lt' (Nat.lt_trans (lt_of_isAscii h hc) (by decide))

theorem forall_mem_ascii {s : String} (h : isAscii s = true) : ∀ x ∈ ascii s, x < 0x80 := by
  intro x hx
  obtain ⟨c, hc, rfl⟩ := List.mem_map.mp hx
  rw [UInt8.lt_iff_toNat_lt, toNat_ofNat_of_isAscii h hc]
  exact lt_of_isAscii h hc

inductive IsKeyText (label : String) (content : Bytes) : Bytes → Prop
  | intro {e lines final : Bytes} : IsLineEnd e → IsCut (Base64.encode content) lines →
      final = [] ∨ IsLineEnd final →
      IsKeyText label content (ascii ("-----BEGIN " ++ label ++ "-----") ++ e ++ lines ++
        ascii ("-----END " ++ label ++ "-----") ++ final)

theorem isInner_of_mem_encode (content : Bytes) : ∀ x ∈ Base64.encode content, IsInner x :=
  Base64.forall_mem_encode (by decide) (by decide) content

/-- **The text of a key is read as the key it holds.** -/
theorem IsKeyText.readKeyText_eq (h : IsKeyText label content b) :
    readKeyText label b = some content := by
  obtain ⟨he, hlines, hfinal⟩ := h
  rename_i e lines final
  obtain ⟨front, e', rfl, he', hjoin, ⟨x, rest, hx, hfront⟩, y, rest', hy, hback⟩ :=
    hlines.exists_joinLines (isInner_of_mem_encode content)
  obtain ⟨boundary, hboundary⟩ : ∃ boundary, boundary = ascii ("-----END " ++ label ++ "-----") :=
    ⟨_, rfl⟩
  -- The boundary ends with a dash, so that only the end behind it is taken off.
  obtain ⟨dashed, hdashed⟩ : ∃ dashed, boundary.reverse = 0x2D :: dashed := by
    rw [hboundary, ascii_append, List.reverse_append]
    exact ⟨_, rfl⟩
  have hdash : IsInner 0x2D := by decide
  have hbegin : ascii ("-----BEGIN " ++ label ++ "-----") =
      ascii "-----BEGIN " ++ ascii (label ++ "-----") := by
    rw [String.append_assoc, ascii_append]
  have hbody : behindLineEnd? (e ++ (front ++ e' ++ boundary ++ final)) =
      some (front ++ e' ++ boundary ++ final) := by
    rw [hfront]
    exact behindLineEnd?_append he hx _
  have hreversed : (beforeLineEnd? (front ++ e' ++ boundary ++ final).reverse).getD
      (front ++ e' ++ boundary ++ final).reverse =
        boundary.reverse ++ (e'.reverse ++ front.reverse) := by
    rw [List.reverse_append, List.reverse_append, List.reverse_append, hdashed]
    exact getD_beforeLineEnd? hfinal hdash _
  have hframed : boundary.reverse.isPrefixOf? (boundary.reverse ++ (e'.reverse ++ front.reverse)) =
      some (e'.reverse ++ front.reverse) :=
    List.isPrefixOf?_eq_some_iff_append_eq.mpr rfl
  have hdigits : beforeLineEnd? (e'.reverse ++ front.reverse) = some front.reverse := by
    rw [hback, List.reverse_append]
    exact beforeLineEnd?_append he' hy _
  rw [← hboundary, hbegin]
  simp only [List.append_assoc] at hbody hreversed ⊢
  simp only [readKeyText, behindPreamble?_begin, behind?_append, hbody, hreversed, ← hboundary,
    hframed, hdigits, List.reverse_reverse, hjoin, Base64.decodePadded_encode, Option.bind_eq_bind,
    Option.bind_some]

/-- The text has ASCII characters only, if the label has. -/
theorem IsKeyText.lt (h : IsKeyText label content b) (hlabel : isAscii label = true) :
    ∀ x ∈ b, x < 0x80 := by
  obtain ⟨he, hlines, hfinal⟩ := h
  have hbound : ∀ s : String, isAscii s = true →
      ∀ x ∈ ascii (s ++ label ++ "-----"), x < 0x80 := by
    intro s hs
    rw [ascii_append, ascii_append]
    exact List.forall_mem_append.mpr ⟨List.forall_mem_append.mpr
      ⟨forall_mem_ascii hs, forall_mem_ascii hlabel⟩, forall_mem_ascii (by decide +kernel)⟩
  have hend : ∀ {e : Bytes}, e = [] ∨ IsLineEnd e → ∀ x ∈ e, x < 0x80 := by
    rintro e (rfl | _ | _ | _) <;> simp
  have hdigits : ∀ x ∈ Base64.encode content, x < 0x80 :=
    Base64.forall_mem_encode (by decide) (by decide) content
  simp only [List.forall_mem_append]
  exact ⟨⟨⟨⟨hbound _ (by decide +kernel), hend (.inr he)⟩,
    hlines.forall_mem hdigits ⟨by decide, by decide⟩⟩, hbound _ (by decide +kernel)⟩, hend hfinal⟩

theorem isKeyText_writeKeyText (label : String) (hcontent : content ≠ []) :
    IsKeyText label content (writeKeyText label content) := by
  have hend : ∀ s : String, ascii (s ++ label ++ "-----\n") =
      ascii (s ++ label ++ "-----") ++ [0x0A] := by
    intro s
    rw [ascii_append, ascii_append (s ++ label), List.append_assoc]
    rfl
  have h : IsKeyText label content _ :=
    .intro .lineFeed (isCut_cutLines _ (Base64.encode_ne_nil hcontent)) (.inr .lineFeed)
  rw [writeKeyText, hend, hend]
  simpa only [List.append_assoc] using h

end LedgerGateway.Pem
