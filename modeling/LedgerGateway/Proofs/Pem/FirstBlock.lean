import LedgerGateway.Pem.FirstBlock
import LedgerGateway.Proofs.Pem.Base64
import LedgerGateway.Proofs.Text.Repair
import Mathlib.Data.List.TakeWhile

/-!
# The first block is found and read

Any lines may stand before a block, as long as they are text and none begins another block
(`Block.IsPreamble`).  The digits in it may be cut into lines anywhere, with white space behind the
digits of a line or instead of them (`Block.IsLooselyCut`).  Behind the line that ends it there may
be anything.  Such a text is read as the label and the content that it was made of
(`Block.IsText.first_eq`).

The lines of the text are read one at a time, so the lemmas follow its making: a line is cut off
where it was put (`linesEndedBy_line`), the lines of the preamble are passed over one by one, and
the digits come together again line by line.
-/

namespace LedgerGateway.Pem

open Text (encodeUtf8)

/-! ### Lines -/

theorem linesEndedBy_append {isEnd : UInt8 → Bool} {front : Bytes} {e : UInt8}
    (hfront : ∀ x ∈ front, isEnd x = false) (he : isEnd e = true) (rest : Bytes) :
    linesEndedBy isEnd (front ++ e :: rest) = (front ++ [e]) :: linesEndedBy isEnd rest := by
  have hne : front ++ e :: rest ≠ [] := List.append_ne_nil_of_right_ne_nil _ (List.cons_ne_nil _ _)
  have hinner : ∀ x ∈ front, (!isEnd x) = true := fun x hx => by rw [hfront x hx]; rfl
  have htake : (e :: rest).takeWhile (!isEnd ·) = [] :=
    List.takeWhile_cons_of_neg (by simp [he])
  have hdrop : (e :: rest).dropWhile (!isEnd ·) = e :: rest :=
    List.dropWhile_cons_of_neg (by simp [he])
  rw [linesEndedBy, if_neg hne, List.takeWhile_append_of_pos hinner,
    List.dropWhile_append_of_pos hinner, htake, hdrop, List.append_nil]
  rfl

namespace Block

variable {s label after closing : String} {b content : Bytes}

/-- The bytes of a text and of the line feed behind it. -/
def line (s : String) : Bytes := encodeUtf8 s ++ [0x0A]

theorem line_eq (s : String) : line s = encodeUtf8 (s ++ "\n") := by
  rw [line, Text.encodeUtf8_append]
  rfl

/-- The only character with the byte of a line feed is the line feed. -/
theorem lineFeed_not_mem (hs : '\n' ∉ s.toList) : ∀ x ∈ encodeUtf8 s, (x == 0x0A) = false := by
  intro x hx
  rw [Text.encodeUtf8_eq, List.mem_flatMap] at hx
  obtain ⟨c, hc, hx⟩ := hx
  rw [beq_eq_false_iff_ne]
  rintro rfl
  by_cases hhigh : 0x80 ≤ c.toNat
  · exact Text.isHigh_utf8EncodeChar hhigh _ hx (by decide)
  · have hlow : c.val.toNat ≤ 127 := Nat.le_of_lt_succ (Nat.not_le.mp hhigh)
    rw [String.utf8EncodeChar, if_pos hlow, List.mem_singleton] at hx
    have hbyte := congrArg UInt8.toNat hx
    rw [UInt8.toNat_ofNat_of_lt' (show c.val.toNat < 256 by omega)] at hbyte
    have hnewline : c = '\n' := Char.ext (UInt32.toNat_inj.mp hbyte.symm)
    exact hs (hnewline ▸ hc)

/-- A line is cut off where it was put. -/
theorem linesEndedBy_line (hs : '\n' ∉ s.toList) (rest : Bytes) :
    linesEndedBy (· == 0x0A) (line s ++ rest) = line s :: linesEndedBy (· == 0x0A) rest := by
  rw [line, List.append_assoc, List.singleton_append,
    linesEndedBy_append (lineFeed_not_mem hs) (by decide)]

theorem readLine_line (s : String) : readLine (line s) = .ok (s.toList ++ ['\n']) := by
  rw [line_eq, readLine, Text.decodeUtf8?_encodeUtf8]
  exact congrArg Except.ok (String.toList_append)

/-! ### Before the block -/

/-- Lines of text of which none begins a block. -/
inductive IsPreamble : Bytes → Prop
  | nil : IsPreamble []
  | cons {s : String} {b : Bytes} : '\n' ∉ s.toList → ¬ beginMarker <+: s.toList → IsPreamble b →
      IsPreamble (line s ++ b)

theorem isPrefixOf?_beginMarker (hs : ¬ beginMarker <+: s.toList) :
    beginMarker.isPrefixOf? (s.toList ++ ['\n']) = none := by
  rw [Option.eq_none_iff_forall_ne_some]
  intro named hnamed
  have hmarker : beginMarker <+: s.toList ++ ['\n'] :=
    ⟨named, List.isPrefixOf?_eq_some_iff_append_eq.mp hnamed⟩
  rcases List.prefix_concat_iff.mp hmarker with hwhole | hmarker
  · have hmem : '\n' ∈ beginMarker := hwhole ▸ List.mem_concat_self
    exact absurd hmem (by decide)
  · exact hs hmarker

/-- The lines before the block are passed over. -/
theorem IsPreamble.readHeader_append (h : IsPreamble b) (rest : Bytes) :
    readHeader (linesEndedBy (· == 0x0A) (b ++ rest)) =
      readHeader (linesEndedBy (· == 0x0A) rest) := by
  induction h with
  | nil => rfl
  | cons hs hmarker _ ih =>
    rw [List.append_assoc, linesEndedBy_line hs, readHeader, readLine_line]
    simp only [bind, Except.bind, isPrefixOf?_beginMarker hmarker, ih]

theorem hasDashes_append (cs rest : List Char) : hasDashes (cs ++ (dashes ++ rest)) = true := by
  induction cs with
  | nil =>
    have hprefix : dashes.isPrefixOf (dashes ++ rest) = true := by
      rw [List.isPrefixOf_iff_prefix]
      exact List.prefix_append _ _
    exact Bool.or_eq_true_iff.mpr (.inl hprefix)
  | cons c cs ih =>
    rw [List.cons_append, hasDashes, ih, Bool.or_true]

/-- The line that begins a block names it up to the dashes. -/
theorem readHeader_begin (hlabel : '-' ∉ label.toList) (rest : List Bytes) :
    readHeader (line ("-----BEGIN " ++ label ++ "-----" ++ after) :: rest) = .ok (label, rest) := by
  obtain ⟨behind, hbehind⟩ : ∃ behind, behind = after.toList ++ ['\n'] := ⟨_, rfl⟩
  have hline : ("-----BEGIN " ++ label ++ "-----" ++ after).toList ++ ['\n'] =
      beginMarker ++ (label.toList ++ (dashes ++ behind)) := by
    rw [String.toList_append, String.toList_append, String.toList_append, List.append_assoc,
      List.append_assoc, List.append_assoc, ← hbehind]
    rfl
  have hmarker : beginMarker.isPrefixOf? (beginMarker ++ (label.toList ++ (dashes ++ behind))) =
      some (label.toList ++ (dashes ++ behind)) :=
    List.isPrefixOf?_eq_some_iff_append_eq.mpr rfl
  have hname : (label.toList ++ (dashes ++ behind)).takeWhile (· != '-') = label.toList := by
    have hnoDash : ∀ c ∈ label.toList, (c != '-') = true := by
      intro c hc
      rw [bne_iff_ne]
      rintro rfl
      exact hlabel hc
    rw [List.takeWhile_append_of_pos hnoDash]
    exact List.append_nil _
  rw [readHeader, readLine_line, hline]
  simp only [bind, Except.bind, hmarker, hasDashes_append, if_true, hname, String.ofList_toList]
  rfl

/-! ### In the block -/

/-- The digits are cut into lines.  Behind the digits of a line there may be white space, and there
may be nothing but white space in a line. -/
inductive IsLooselyCut : String → Bytes → Prop
  | nil : IsLooselyCut "" []
  | cons {front blanks digits : String} {b : Bytes} :
      (∀ c ∈ blanks.toList, Text.isBlank c = true ∧ c ≠ '\n') → IsLooselyCut digits b →
      IsLooselyCut (front ++ digits) (line (front ++ blanks) ++ b)

/-- A character that digits may be: it is neither white space nor a dash. -/
def IsDense (c : Char) : Prop := Text.isBlank c = false ∧ c ≠ '-'

instance (c : Char) : Decidable (IsDense c) := inferInstanceAs (Decidable (_ ∧ _))

theorem trimEnd_append {cs blanks : List Char} (hblanks : ∀ c ∈ blanks, Text.isBlank c = true)
    (hcs : ∀ c ∈ cs, IsDense c) : Text.trimEnd (cs ++ blanks) = cs := by
  have hblanks' : ∀ c ∈ blanks.reverse, Text.isBlank c = true :=
    fun c hc => hblanks c (List.mem_reverse.mp hc)
  rw [Text.trimEnd, List.reverse_append, List.dropWhile_append_of_pos hblanks',
    List.dropWhile_eq_self_iff.mpr, List.reverse_reverse]
  intro hlength
  have hmem := List.mem_reverse.mp (List.getElem_mem hlength)
  rw [(hcs _ hmem).1]
  decide

theorem isPrefixOf_endMarker {cs : List Char} (hcs : '-' ∉ cs) :
    endMarker.isPrefixOf cs = false := by
  rw [Bool.eq_false_iff]
  intro h
  have hmarker : '-' ∈ endMarker := by decide
  exact hcs ((List.isPrefixOf_iff_prefix.mp h).subset hmarker)

section Digits

variable {front blanks : String} (hfront : ∀ c ∈ front.toList, IsDense c)
  (hblanks : ∀ c ∈ blanks.toList, Text.isBlank c = true ∧ c ≠ '\n')

include hfront hblanks

theorem lineFeed_not_mem_digits : '\n' ∉ (front ++ blanks).toList := by
  have hblank : Text.isBlank '\n' = true := by decide
  rw [String.toList_append, List.mem_append, not_or]
  refine ⟨fun hmem => ?_, fun hmem => (hblanks _ hmem).2 rfl⟩
  cases (hfront _ hmem).1.symm.trans hblank

/-- A line of digits does not end the block, and gives its digits. -/
theorem readBody_digits (rest : List Bytes) :
    readBody (line (front ++ blanks) :: rest) =
      (readBody rest).map (front.toList ++ ·) := by
  have hends : ∀ c ∈ blanks.toList ++ ['\n'], Text.isBlank c = true := by
    simp only [List.forall_mem_append, List.forall_mem_singleton]
    exact ⟨fun c hc => (hblanks c hc).1, by decide⟩
  have hdash : Text.isBlank '-' = false := by decide
  have hmarker : endMarker.isPrefixOf ((front ++ blanks).toList ++ ['\n']) = false := by
    refine isPrefixOf_endMarker ?_
    rw [String.toList_append, List.append_assoc, List.mem_append, not_or]
    refine ⟨fun hmem => (hfront _ hmem).2 rfl, fun hmem => ?_⟩
    cases hdash.symm.trans (hends _ hmem)
  have htrim : Text.trimEnd ((front ++ blanks).toList ++ ['\n']) = front.toList := by
    rw [String.toList_append, List.append_assoc, trimEnd_append hends hfront]
  rw [readBody, readLine_line]
  simp only [bind, Except.bind, hmarker, Bool.false_eq_true, if_false, htrim]
  cases readBody rest <;> rfl

end Digits

theorem readBody_end (closing : String) (rest : List Bytes) :
    readBody (line ("-----END " ++ closing) :: rest) = .ok [] := by
  have hmarker : endMarker.isPrefixOf (("-----END " ++ closing).toList ++ ['\n']) = true := by
    rw [List.isPrefixOf_iff_prefix, String.toList_append, List.append_assoc]
    exact List.prefix_append _ _
  rw [readBody, readLine_line]
  simp only [bind, Except.bind, hmarker, if_true]
  rfl

/-- The digits come together again. -/
theorem IsLooselyCut.readBody_append {digits : String} (h : IsLooselyCut digits b)
    (hdigits : ∀ c ∈ digits.toList, IsDense c) (hclosing : '\n' ∉ closing.toList) (tail : Bytes) :
    readBody (linesEndedBy (· == 0x0A) (b ++ (line ("-----END " ++ closing) ++ tail))) =
      .ok digits.toList := by
  induction h with
  | nil =>
    have hend : '\n' ∉ ("-----END " ++ closing).toList := by
      rw [String.toList_append, List.mem_append, not_or]
      exact ⟨by decide, hclosing⟩
    rw [List.nil_append, linesEndedBy_line hend, readBody_end]
    rfl
  | cons hblanks _ ih =>
    rw [String.toList_append, List.forall_mem_append] at hdigits
    obtain ⟨hfront, hdigits⟩ := hdigits
    rw [List.append_assoc, linesEndedBy_line (lineFeed_not_mem_digits hfront hblanks),
      readBody_digits hfront hblanks, ih hdigits, String.toList_append]
    rfl

def digitText (content : Bytes) : String :=
  String.ofList ((Base64.encode content).map fun x => Char.ofNat x.toNat)

theorem encodeUtf8_digitText (content : Bytes) :
    encodeUtf8 (digitText content) = Base64.encode content :=
  Text.encodeUtf8_of_ascii (Base64.forall_mem_encode (by decide) (by decide) content)

theorem isDense_of_mem_digitText (content : Bytes) :
    ∀ c ∈ (digitText content).toList, IsDense c := by
  intro c hc
  rw [digitText, String.toList_ofList, List.mem_map] at hc
  obtain ⟨x, hx, rfl⟩ := hc
  exact Base64.forall_mem_encode (P := fun x => IsDense (Char.ofNat x.toNat)) (by decide)
    (by decide) content x hx

/-! ### The text -/

/-- The bytes begin with lines that begin no block, and go on with a block of this label and this
content.  Anything stands behind it. -/
inductive IsText (label : String) (content : Bytes) : Bytes → Prop
  | intro {preamble lines tail : Bytes} {after closing : String} :
      IsPreamble preamble → '\n' ∉ after.toList → IsLooselyCut (digitText content) lines →
      '\n' ∉ closing.toList →
      IsText label content (preamble ++ (line ("-----BEGIN " ++ label ++ "-----" ++ after) ++
        (lines ++ (line ("-----END " ++ closing) ++ tail))))

/-- **The first block is read as it was written**, whatever stands before it or behind it. -/
theorem IsText.first_eq (h : IsText label content b) (hlabel : '-' ∉ label.toList)
    (hlabel' : '\n' ∉ label.toList) : first b = .ok ⟨label, content⟩ := by
  obtain ⟨hpreamble, hafter, hcut, hclosing⟩ := h
  rename_i preamble lines tail after closing
  have hbegin : '\n' ∉ ("-----BEGIN " ++ label ++ "-----" ++ after).toList := by
    simp only [String.toList_append, List.mem_append, not_or]
    exact ⟨⟨⟨by decide, hlabel'⟩, by decide⟩, hafter⟩
  have hbody := hcut.readBody_append (isDense_of_mem_digitText content) hclosing tail
  rw [first, hpreamble.readHeader_append, linesEndedBy_line hbegin, readHeader_begin hlabel]
  simp only [bind, Except.bind, hbody, String.ofList_toList, encodeUtf8_digitText,
    Base64.decodeRows_encode]
  rfl

end Block

end LedgerGateway.Pem
