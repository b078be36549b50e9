import LedgerGateway.Proofs.Pem.FirstBlock
import LedgerGateway.Proofs.Pem.KeyText

/-!
# Texts that are cut off

A text may have been written only in part.  Of a text with a block, all lines are read up to the one
that begins with `-----END `; before that marker is complete, no block has been found
(`Block.first_of_prefix`).  The lines up to there may be told apart by their bytes
(`Block.IsOpened`), since what begins a line is the same in bytes and in characters
(`Block.readLine_prefix_iff`).

The text of a key is read to its end.  There are no dashes in it but those of the boundaries, so if
a text and a part of it are both texts of a key, their last boundaries are the same one, and the part
lacks nothing but the end of the last line (`lacksLineEnd_of_readKeyText`).
-/

namespace LedgerGateway.Pem

variable {b p l rest : Bytes}

/-! ### Lines of bytes -/

theorem linesEndedBy_nil (isEnd : UInt8 → Bool) : linesEndedBy isEnd [] = [] := by
  rw [linesEndedBy, if_pos rfl]

/-- A line that is not ended is the last one. -/
theorem linesEndedBy_last (hne : l ≠ []) (hl : 0x0A ∉ l) :
    linesEndedBy (· == 0x0A) l = [l] := by
  have hinner : ∀ x ∈ l, (!x == 0x0A) = true := by
    intro x hx
    rw [Bool.not_eq_true', beq_eq_false_iff_ne]
    rintro rfl
    exact hl hx
  rw [linesEndedBy, if_neg hne, List.takeWhile_eq_self_iff.mpr hinner,
    List.dropWhile_eq_nil_iff.mpr hinner, List.take_nil, List.drop_nil, List.append_nil,
    linesEndedBy_nil]

theorem linesEndedBy_lineFeed (hl : 0x0A ∉ l) (rest : Bytes) :
    linesEndedBy (· == 0x0A) (l ++ 0x0A :: rest) =
      (l ++ [0x0A]) :: linesEndedBy (· == 0x0A) rest := by
  refine linesEndedBy_append (fun x hx => ?_) (by decide) rest
  rw [beq_eq_false_iff_ne]
  rintro rfl
  exact hl hx

/-- Bytes are empty, or a line that is not ended, or a line and bytes behind it. -/
theorem lines_induction {motive : Bytes → Prop} (nil : motive [])
    (last : ∀ l, l ≠ [] → 0x0A ∉ l → motive l)
    (line : ∀ l rest, 0x0A ∉ l → motive rest → motive (l ++ 0x0A :: rest)) : ∀ b, motive b := by
  intro b
  induction hn : b.length using Nat.strong_induction_on generalizing b with
  | _ n ih =>
    by_cases hmem : (0x0A : UInt8) ∈ b
    · obtain ⟨l, rest, rfl, hl⟩ := List.eq_append_cons_of_mem hmem
      refine line l rest hl (ih _ ?_ rest rfl)
      rw [← hn, List.length_append, List.length_cons]
      omega
    · by_cases hne : b = []
      · rw [hne]
        exact nil
      · exact last b hne hmem

/-- Where bytes with a line in front are cut off, it is in the line or behind it. -/
theorem prefix_line_cases (hp : p <+: l ++ 0x0A :: rest) :
    p <+: l ∨ ∃ p', p = l ++ 0x0A :: p' ∧ p' <+: rest := by
  rcases List.prefix_or_prefix_of_prefix hp (List.prefix_append l _) with hinside | ⟨q, rfl⟩
  · exact .inl hinside
  · rcases List.prefix_cons_iff.1 ((List.prefix_append_right_inj l).1 hp) with rfl | ⟨p', rfl, hp'⟩
    · rw [List.append_nil]
      exact .inl (List.prefix_refl l)
    · exact .inr ⟨p', rfl, hp'⟩

/-- Complete lines of which none begins with a marker. -/
inductive AreLines (marker : Bytes) : Bytes → Prop
  | nil : AreLines marker []
  | cons {l b : Bytes} : 0x0A ∉ l → ¬ marker <+: l → AreLines marker b →
      AreLines marker (l ++ 0x0A :: b)

/-- The end of a line is no part of a marker that it begins with. -/
theorem prefix_of_prefix_concat {marker : Bytes} (hmarker : 0x0A ∉ marker)
    (h : marker <+: l ++ [0x0A]) : marker <+: l := by
  rcases List.prefix_concat_iff.1 h with rfl | hl
  · exact absurd List.mem_concat_self hmarker
  · exact hl

namespace Block

/-! ### Markers -/

theorem ofList_ascii {s : String} (hs : isAscii s = true) :
    String.ofList ((ascii s).map fun x => Char.ofNat x.toNat) = s := by
  have hchars : (ascii s).map (fun x => Char.ofNat x.toNat) = s.toList := by
    rw [ascii, List.map_map]
    refine List.map_congr_left (fun c hc => ?_) |>.trans (List.map_id s.toList)
    rw [Function.comp_apply, toNat_ofNat_of_isAscii hs hc, Char.ofNat_toNat, id]
  rw [hchars, String.ofList_toList]

/-- What begins a line does so in bytes as in characters. -/
theorem readLine_prefix_iff {s : String} (hs : isAscii s = true) {cs : List Char}
    (h : readLine l = .ok cs) : s.toList <+: cs ↔ ascii s <+: l := by
  have hascii := forall_mem_ascii hs
  have hbytes : Text.encodeUtf8 s = ascii s := by
    have hsame := Text.encodeUtf8_of_ascii hascii
    rwa [ofList_ascii hs] at hsame
  rw [readLine] at h
  cases ht : Text.decodeUtf8? l with
  | none => rw [ht] at h; cases h
  | some t =>
    rw [ht] at h
    cases h
    obtain rfl := Text.decodeUtf8?_eq_some_iff.mp ht
    constructor
    · rintro ⟨behind, hbehind⟩
      have hwhole : t = s ++ String.ofList behind := by
        rw [← @String.ofList_toList t, ← hbehind, String.ofList_append, String.ofList_toList]
      rw [hwhole, Text.encodeUtf8_append, hbytes]
      exact List.prefix_append _ _
    · rintro ⟨behind, hbehind⟩
      have hshown := Text.decodeLossy_encodeUtf8 t
      rw [← hbehind, Text.decodeLossy_ascii_append hascii, ofList_ascii hs] at hshown
      rw [← hshown, String.toList_append]
      exact List.prefix_append _ _

theorem isPrefixOf_endMarker_iff {cs : List Char} (h : readLine l = .ok cs) :
    endMarker.isPrefixOf cs = true ↔ ascii "-----END " <+: l := by
  rw [List.isPrefixOf_iff_prefix]
  exact readLine_prefix_iff (s := "-----END ") (by decide) h

theorem isPrefixOf?_beginMarker_eq_none_iff {cs : List Char} (h : readLine l = .ok cs) :
    beginMarker.isPrefixOf? cs = none ↔ ¬ ascii "-----BEGIN " <+: l := by
  rw [← readLine_prefix_iff (s := "-----BEGIN ") (by decide) h, ← Option.not_isSome_iff_eq_none,
    List.isSome_isPrefixOf?_eq_isPrefixOf, List.isPrefixOf_iff_prefix]
  rfl

/-! ### Line by line -/

/-- What a line does when the body of a block is read. -/
theorem readBody_cons_eq_ok {lines : List Bytes} {cs : List Char}
    (h : readBody (l :: lines) = .ok cs) :
    ascii "-----END " <+: l ∨ ¬ ascii "-----END " <+: l ∧ ∃ cs', readBody lines = .ok cs' := by
  rw [readBody] at h
  cases hline : readLine l with
  | error fault => rw [hline] at h; cases h
  | ok cs₁ =>
    by_cases hmarker : ascii "-----END " <+: l
    · exact .inl hmarker
    · rw [hline] at h
      have hnot := mt (isPrefixOf_endMarker_iff hline).1 hmarker
      cases hrest : readBody lines with
      | error fault => simp [bind, Except.bind, hnot, hrest] at h
      | ok cs' => exact .inr ⟨hmarker, cs', rfl⟩

/-- What a line does when the block is looked for. -/
theorem readHeader_cons_eq_ok {lines lines' : List Bytes} {label : String}
    (h : readHeader (l :: lines) = .ok (label, lines')) :
    ascii "-----BEGIN " <+: l ∧ lines' = lines ∨
      ¬ ascii "-----BEGIN " <+: l ∧ readHeader lines = .ok (label, lines') := by
  rw [readHeader] at h
  cases hline : readLine l with
  | error fault => rw [hline] at h; cases h
  | ok cs =>
    have hnone := isPrefixOf?_beginMarker_eq_none_iff hline
    rw [hline] at h
    cases hmarker : beginMarker.isPrefixOf? cs with
    | none =>
      simp only [bind, Except.bind, hmarker] at h
      exact .inr ⟨hnone.1 hmarker, h⟩
    | some named =>
      have hbegins : ascii "-----BEGIN " <+: l := by
        by_contra hnot
        cases (hnone.2 hnot).symm.trans hmarker
      simp only [bind, Except.bind, hmarker] at h
      split at h
      · cases h
        exact .inl ⟨hbegins, rfl⟩
      · cases h

theorem exists_of_first {block : Block} (h : first b = .ok block) :
    ∃ label lines cs, readHeader (linesEndedBy (· == 0x0A) b) = .ok (label, lines) ∧
      readBody lines = .ok cs := by
  rw [first] at h
  cases hheader : readHeader (linesEndedBy (· == 0x0A) b) with
  | error fault => rw [hheader] at h; cases h
  | ok found =>
    obtain ⟨label, lines⟩ := found
    rw [hheader] at h
    cases hbody : readBody lines with
    | error fault => simp [bind, Except.bind, hbody] at h
    | ok cs => exact ⟨label, lines, cs, rfl, hbody⟩

/-! ### Up to the marker that closes the block -/

/-- Bytes up to the line that closes the first block: lines that begin no block, the line that
begins one, and lines that do not end it. -/
inductive IsOpened : Bytes → Prop
  | intro {before named body : Bytes} : AreLines (ascii "-----BEGIN ") before → 0x0A ∉ named →
      AreLines (ascii "-----END ") body →
      IsOpened (before ++ (ascii "-----BEGIN " ++ named ++ 0x0A :: body))

theorem lineFeed_not_mem_begin : 0x0A ∉ ascii "-----BEGIN " := by decide

theorem lineFeed_not_mem_end : 0x0A ∉ ascii "-----END " := by decide

/-- A body that was read has lines up to a marker. -/
theorem exists_body {cs : List Char} (h : readBody (linesEndedBy (· == 0x0A) b) = .ok cs) :
    ∃ body rest, b = body ++ (ascii "-----END " ++ rest) ∧ AreLines (ascii "-----END ") body := by
  induction b using lines_induction generalizing cs with
  | nil =>
    rw [linesEndedBy_nil] at h
    cases h
  | last l hne hl =>
    rw [linesEndedBy_last hne hl] at h
    rcases readBody_cons_eq_ok h with ⟨rest, rfl⟩ | ⟨_, cs', hnothing⟩
    · exact ⟨[], rest, rfl, .nil⟩
    · cases hnothing
  | line l rest hl ih =>
    rw [linesEndedBy_lineFeed hl] at h
    rcases readBody_cons_eq_ok h with hmarker | ⟨hmarker, cs', hrest⟩
    · obtain ⟨behind, rfl⟩ := prefix_of_prefix_concat lineFeed_not_mem_end hmarker
      exact ⟨[], behind ++ 0x0A :: rest, List.append_assoc .., .nil⟩
    · obtain ⟨body, behind, rfl, hbody⟩ := ih hrest
      have hmarker' : ¬ ascii "-----END " <+: l :=
        fun hbegins => hmarker (hbegins.trans (List.prefix_append l _))
      exact ⟨l ++ 0x0A :: body, behind, (List.append_assoc l (0x0A :: body) _).symm,
        .cons hl hmarker' hbody⟩

/-- If a block was read, there is a marker that closes it. -/
theorem exists_isOpened {label : String} {lines : List Bytes} {cs : List Char}
    (h : readHeader (linesEndedBy (· == 0x0A) b) = .ok (label, lines))
    (hbody : readBody lines = .ok cs) :
    ∃ front rest, b = front ++ (ascii "-----END " ++ rest) ∧ IsOpened front := by
  induction b using lines_induction with
  | nil =>
    rw [linesEndedBy_nil] at h
    cases h
  | last l hne hl =>
    rw [linesEndedBy_last hne hl] at h
    rcases readHeader_cons_eq_ok h with ⟨_, rfl⟩ | ⟨_, hnothing⟩
    · cases hbody
    · cases hnothing
  | line l rest hl ih =>
    rw [linesEndedBy_lineFeed hl] at h
    rcases readHeader_cons_eq_ok h with ⟨hmarker, rfl⟩ | ⟨hmarker, hrest⟩
    · obtain ⟨named, rfl⟩ := prefix_of_prefix_concat lineFeed_not_mem_begin hmarker
      obtain ⟨body, behind, rfl, hlines⟩ := exists_body hbody
      have hnamed : 0x0A ∉ named := fun hmem => hl (List.mem_append_right _ hmem)
      exact ⟨_, behind, (List.append_assoc _ (0x0A :: body) _).symm, .intro .nil hnamed hlines⟩
    · obtain ⟨_, behind, rfl, hbefore, hnamed, hlines⟩ := ih hrest
      have hmarker' : ¬ ascii "-----BEGIN " <+: l :=
        fun hbegins => hmarker (hbegins.trans (List.prefix_append l _))
      have hopened := IsOpened.intro (.cons hl hmarker' hbefore) hnamed hlines
      refine ⟨_, behind, ?_, hopened⟩
      simp only [List.append_assoc, List.cons_append]

/-- There is no body in these lines. -/
def NoBody (lines : List Bytes) : Prop := ∃ fault, readBody lines = .error fault

theorem noBody_cons {lines : List Bytes} (hmarker : ¬ ascii "-----END " <+: l)
    (h : NoBody lines) : NoBody (l :: lines) := by
  cases hread : readBody (l :: lines) with
  | error fault => exact ⟨fault, hread⟩
  | ok cs =>
    obtain ⟨fault, hfault⟩ := h
    rcases readBody_cons_eq_ok hread with hend | ⟨_, cs', hok⟩
    · exact absurd hend hmarker
    · cases hfault.symm.trans hok

theorem noBody_of_line (hl : 0x0A ∉ l) (hmarker : ¬ ascii "-----END " <+: l) :
    NoBody (linesEndedBy (· == 0x0A) l) := by
  by_cases hne : l = []
  · rw [hne, linesEndedBy_nil]
    exact ⟨_, rfl⟩
  · rw [linesEndedBy_last hne hl]
    exact noBody_cons hmarker ⟨_, rfl⟩

/-- Before the marker is complete, there is no body. -/
theorem noBody_of_prefix {body : Bytes} (h : AreLines (ascii "-----END ") body)
    (hp : p <+: body ++ ascii "-----END ") (hne : p ≠ body ++ ascii "-----END ") :
    NoBody (linesEndedBy (· == 0x0A) p) := by
  induction h generalizing p with
  | nil =>
    rw [List.nil_append] at hp hne
    refine noBody_of_line (fun hmem => lineFeed_not_mem_end (hp.subset hmem)) fun hmarker => ?_
    exact hne (hp.eq_of_length_le hmarker.length_le)
  | @cons l body hl hmarker _ ih =>
    rw [List.append_assoc, List.cons_append] at hp hne
    rcases prefix_line_cases hp with hinside | ⟨p', rfl, hp'⟩
    · exact noBody_of_line (fun hmem => hl (hinside.subset hmem))
        fun hends => hmarker (hends.trans hinside)
    · rw [linesEndedBy_lineFeed hl]
      refine noBody_cons (fun hends => ?_) (ih hp' fun heq => hne (heq ▸ rfl))
      exact hmarker (prefix_of_prefix_concat lineFeed_not_mem_end hends)

/-- If a block begins in these lines, there is no body behind. -/
def NoBlock (lines : List Bytes) : Prop :=
  ∀ label rest, readHeader lines = .ok (label, rest) → NoBody rest

theorem noBlock_cons {lines : List Bytes} (hmarker : ¬ ascii "-----BEGIN " <+: l)
    (h : NoBlock lines) : NoBlock (l :: lines) := by
  intro label rest hread
  rcases readHeader_cons_eq_ok hread with ⟨hbegins, _⟩ | ⟨_, hrest⟩
  · exact absurd hbegins hmarker
  · exact h label rest hrest

theorem noBlock_begin {lines : List Bytes} (hmarker : ascii "-----BEGIN " <+: l)
    (h : NoBody lines) : NoBlock (l :: lines) := by
  intro label rest hread
  rcases readHeader_cons_eq_ok hread with ⟨_, rfl⟩ | ⟨hnot, _⟩
  · exact h
  · exact absurd hmarker hnot

theorem noBlock_of_line (hl : 0x0A ∉ l) : NoBlock (linesEndedBy (· == 0x0A) l) := by
  by_cases hne : l = []
  · rw [hne, linesEndedBy_nil]
    rintro _ _ ⟨⟩
  · rw [linesEndedBy_last hne hl]
    by_cases hmarker : ascii "-----BEGIN " <+: l
    · exact noBlock_begin hmarker ⟨_, rfl⟩
    · exact noBlock_cons hmarker nofun

/-- Before the marker is complete, there is no block. -/
theorem noBlock_of_prefix {before tail : Bytes} {named : Bytes}
    (h : AreLines (ascii "-----BEGIN ") before) (hnamed : 0x0A ∉ named)
    (htail : ∀ q, q <+: tail → q ≠ tail → NoBody (linesEndedBy (· == 0x0A) q))
    (hp : p <+: before ++ (ascii "-----BEGIN " ++ named ++ 0x0A :: tail))
    (hne : p ≠ before ++ (ascii "-----BEGIN " ++ named ++ 0x0A :: tail)) :
    NoBlock (linesEndedBy (· == 0x0A) p) := by
  induction h generalizing p with
  | nil =>
    rw [List.nil_append] at hp hne
    have hbegin : 0x0A ∉ ascii "-----BEGIN " ++ named := by
      rw [List.mem_append, not_or]
      exact ⟨lineFeed_not_mem_begin, hnamed⟩
    rcases prefix_line_cases hp with hinside | ⟨p', rfl, hp'⟩
    · exact noBlock_of_line fun hmem => hbegin (hinside.subset hmem)
    · rw [linesEndedBy_lineFeed hbegin, List.append_assoc]
      exact noBlock_begin (List.prefix_append _ _) (htail p' hp' fun heq => hne (heq ▸ rfl))
  | @cons l before hl hmarker _ ih =>
    rw [List.append_assoc, List.cons_append] at hp hne
    rcases prefix_line_cases hp with hinside | ⟨p', rfl, hp'⟩
    · exact noBlock_of_line fun hmem => hl (hinside.subset hmem)
    · rw [linesEndedBy_lineFeed hl]
      refine noBlock_cons (fun hbegins => ?_) (ih hp' fun heq => hne (heq ▸ rfl))
      exact hmarker (prefix_of_prefix_concat lineFeed_not_mem_begin hbegins)

/-- **Without the marker that closes it, no block is read**, wherever the text is cut off. -/
theorem first_of_prefix {front : Bytes} (h : IsOpened front)
    (hp : p <+: front ++ ascii "-----END ") (hne : p ≠ front ++ ascii "-----END ") :
    ∃ fault, first p = .error fault := by
  obtain ⟨hbefore, hnamed, hbody⟩ := h
  rw [List.append_assoc, List.append_assoc, List.cons_append] at hp hne
  have hnone := noBlock_of_prefix hbefore hnamed (fun q => noBody_of_prefix hbody) hp hne
  cases hfirst : first p with
  | error fault => exact ⟨fault, rfl⟩
  | ok block =>
    obtain ⟨label, lines, cs, hheader, hok⟩ := exists_of_first hfirst
    obtain ⟨fault, hfault⟩ := hnone label lines hheader
    cases hfault.symm.trans hok

/-- **A block that is read is closed by a marker.** -/
theorem exists_isOpened_of_first {block : Block} (h : first b = .ok block) :
    ∃ front rest, b = front ++ (ascii "-----END " ++ rest) ∧ IsOpened front := by
  obtain ⟨_, _, _, hheader, hbody⟩ := exists_of_first h
  exact exists_isOpened hheader hbody

end Block

/-! ### The text of a key -/

section KeyText

variable {label label' : String} {content content' named inner : Bytes}

/-- The first bytes lack nothing of the second but what ends the last line, or a part of that. -/
def LacksLineEnd (p b : Bytes) : Prop :=
  ∃ core final, b = core ++ final ∧ IsLineEnd final ∧ core <+: p

theorem LacksLineEnd.length_le (h : LacksLineEnd p b) : b.length ≤ p.length + 2 := by
  obtain ⟨core, final, rfl, hfinal, hcore⟩ := h
  have hend : final.length ≤ 2 := by
    cases hfinal <;> decide
  have hle := hcore.length_le
  rw [List.length_append]
  omega

theorem exists_of_behindLineEnd? (h : behindLineEnd? b = some rest) :
    ∃ e, IsLineEnd e ∧ b = e ++ rest := by
  unfold behindLineEnd? at h
  split at h
  · cases h
    exact ⟨_, .both, rfl⟩
  · cases h
    exact ⟨_, .carriageReturn, rfl⟩
  · cases h
    exact ⟨_, .lineFeed, rfl⟩
  · cases h

theorem exists_of_beforeLineEnd? (h : beforeLineEnd? b.reverse = some rest) :
    ∃ e, IsLineEnd e ∧ b = rest.reverse ++ e := by
  unfold beforeLineEnd? at h
  split at h
  · rename_i hb
    cases h
    exact ⟨_, .both, by simpa using congrArg List.reverse hb⟩
  · rename_i hb
    cases h
    exact ⟨_, .lineFeed, by simpa using congrArg List.reverse hb⟩
  · rename_i hb
    cases h
    exact ⟨_, .carriageReturn, by simpa using congrArg List.reverse hb⟩
  · cases h

/-- Nothing but the ends of the lines is left out where lines are joined. -/
theorem mem_of_joinLines {text digits : Bytes} (h : joinLines text = some digits) :
    ∀ x ∈ text, x ∈ digits ∨ x = 0x0A ∨ x = 0x0D := by
  fun_induction joinLines text generalizing digits with
  | case1 => cases h
  | case2 text _ _ =>
    cases h
    exact fun x hx => .inl hx
  | case3 => cases h
  | case4 text _ _ rest hbehind _ ih =>
    obtain ⟨others, hothers, rfl⟩ := Option.map_eq_some_iff.mp h
    obtain ⟨e, he, hdrop⟩ := exists_of_behindLineEnd? hbehind
    have hend : ∀ x ∈ e, x = 0x0A ∨ x = 0x0D := by
      cases he <;> simp
    intro x hx
    rw [← List.take_append_drop 64 text, hdrop, List.mem_append, List.mem_append] at hx
    rcases hx with hline | hx | hrest
    · exact .inl (List.mem_append_left _ hline)
    · exact .inr (hend x hx)
    · exact (ih hothers x hrest).imp_left (List.mem_append_right _)

theorem behind?_eq_some_iff {s : String} : behind? s b = some rest ↔ b = ascii s ++ rest := by
  rw [behind?, List.isPrefixOf?_eq_some_iff_append_eq, eq_comm]

/-- Whether bytes begin with a text shows in as many bytes as the text has. -/
theorem behind?_append_eq_none {s : String} (h : behind? s b = none)
    (hlength : (ascii s).length ≤ b.length) (tail : Bytes) : behind? s (b ++ tail) = none := by
  rw [Option.eq_none_iff_forall_ne_some]
  intro rest hrest
  obtain ⟨behind, rfl⟩ := List.prefix_of_prefix_length_le
    ⟨rest, (behind?_eq_some_iff.mp hrest).symm⟩ (List.prefix_append b tail) hlength
  cases h.symm.trans (behind?_append s behind)

theorem behindPreamble?_cons_eq_some_iff {atStart : Bool} {x : UInt8} :
    behindPreamble? atStart (x :: b) = some named ↔
      atStart ∧ behind? "-----BEGIN " (x :: b) = some named ∨
      ¬ (atStart ∧ (behind? "-----BEGIN " (x :: b)).isSome) ∧ x ≠ 0x00 ∧
        behindPreamble? (x == 0x0A) b = some named := by
  rw [behindPreamble?]
  cases atStart <;> cases behind? "-----BEGIN " (x :: b) <;> simp

theorem exists_of_behindPreamble? {atStart : Bool} (h : behindPreamble? atStart b = some named) :
    ∃ before, b = before ++ (ascii "-----BEGIN " ++ named) := by
  induction b generalizing atStart with
  | nil => cases h
  | cons x b ih =>
    rcases behindPreamble?_cons_eq_some_iff.mp h with ⟨_, hbegins⟩ | ⟨_, _, hrest⟩
    · exact ⟨[], behind?_eq_some_iff.mp hbegins⟩
    · obtain ⟨before, rfl⟩ := ih hrest
      exact ⟨x :: before, rfl⟩

/-- A preamble is passed over in the same way, whatever stands behind. -/
theorem behindPreamble?_append {atStart : Bool} (h : behindPreamble? atStart b = some named)
    (tail : Bytes) : behindPreamble? atStart (b ++ tail) = some (named ++ tail) := by
  induction b generalizing atStart with
  | nil => cases h
  | cons x b ih =>
    rw [List.cons_append, behindPreamble?_cons_eq_some_iff]
    rcases behindPreamble?_cons_eq_some_iff.mp h with ⟨hstart, hbegins⟩ | ⟨hnot, hzero, hrest⟩
    · have hwhole := congrArg (· ++ tail) (behind?_eq_some_iff.mp hbegins)
      rw [List.append_assoc] at hwhole
      exact .inl ⟨hstart, behind?_eq_some_iff.mpr hwhole⟩
    · -- The boundary stands in the rest, so there are enough bytes to tell that none begins here.
      obtain ⟨before, rfl⟩ := exists_of_behindPreamble? hrest
      have hlength : (ascii "-----BEGIN ").length ≤
          (x :: (before ++ (ascii "-----BEGIN " ++ named))).length := by
        simp only [List.length_cons, List.length_append]
        omega
      refine .inr ⟨fun hbegins => hnot ⟨hbegins.1, ?_⟩, hzero, ih hrest⟩
      rw [Option.isSome_iff_ne_none]
      intro hnone
      have hnone' := behind?_append_eq_none hnone hlength tail
      rw [List.cons_append] at hnone'
      rw [hnone'] at hbegins
      cases hbegins.2

theorem exists_of_getD_beforeLineEnd? :
    ∃ final, (final = [] ∨ IsLineEnd final) ∧
      b = ((beforeLineEnd? b.reverse).getD b.reverse).reverse ++ final := by
  cases h : beforeLineEnd? b.reverse with
  | none => exact ⟨[], .inl rfl, by simp⟩
  | some rest =>
    obtain ⟨final, hfinal, heq⟩ := exists_of_beforeLineEnd? h
    exact ⟨final, .inr hfinal, heq⟩

theorem dash_not_mem_lineEnd {e : Bytes} (he : IsLineEnd e) : 0x2D ∉ e := by
  cases he <;> decide

theorem dash_not_mem_joined {text digits : Bytes} (h : joinLines text = some digits)
    (hdigits : Base64.decodePadded digits = some content) : 0x2D ∉ text := by
  intro hmem
  have hdash : ¬ Base64.IsDigitOrPad 0x2D := by
    rintro (hpad | hdigit)
    · exact absurd hpad (by decide)
    · exact absurd hdigit (by decide)
  rcases mem_of_joinLines h _ hmem with hmem | hfeed | hreturn
  · exact hdash (Base64.isDigitOrPad_of_decodePadded hdigits _ hmem)
  · exact absurd hfeed (by decide)
  · exact absurd hreturn (by decide)

/-- A text of a key goes on behind its first boundary with the name, then with anything but dashes up
to its last boundary, and behind that with one end of a line at most. -/
theorem exists_of_readKeyText (h : readKeyText label b = some content) :
    ∃ inner final, behindPreamble? true b = some (ascii (label ++ "-----") ++
        (inner ++ (ascii ("-----END " ++ label ++ "-----") ++ final))) ∧
      0x2D ∉ inner ∧ (final = [] ∨ IsLineEnd final) := by
  obtain ⟨named, hnamed, h⟩ := Option.bind_eq_some_iff.mp h
  obtain ⟨labelled, hlabelled, h⟩ := Option.bind_eq_some_iff.mp h
  obtain ⟨body, hbody, h⟩ := Option.bind_eq_some_iff.mp h
  obtain ⟨framed, hframed, h⟩ := Option.bind_eq_some_iff.mp h
  obtain ⟨digits, hdigits, h⟩ := Option.bind_eq_some_iff.mp h
  obtain ⟨joined, hjoined, hdecoded⟩ := Option.bind_eq_some_iff.mp h
  obtain ⟨e, he, rfl⟩ := exists_of_behindLineEnd? hbody
  obtain ⟨final, hfinal, hfinished⟩ := exists_of_getD_beforeLineEnd? (b := body)
  rw [List.isPrefixOf?_eq_some_iff_append_eq] at hframed
  rw [← hframed, List.reverse_append, List.reverse_reverse] at hfinished
  obtain ⟨e', he', hfront⟩ := exists_of_beforeLineEnd? (b := framed.reverse)
    (by rwa [List.reverse_reverse])
  refine ⟨e ++ (digits.reverse ++ e'), final, ?_, ?_, hfinal⟩
  · rw [hnamed, behind?_eq_some_iff.mp hlabelled, hfinished, hfront]
    simp only [List.append_assoc]
  · simp only [List.mem_append, not_or]
    exact ⟨dash_not_mem_lineEnd he, dash_not_mem_joined hjoined hdecoded, dash_not_mem_lineEnd he'⟩

/-- Bytes are split in one way at the first of a kind. -/
theorem append_cons_inj {x : UInt8} : ∀ {l l' r r' : Bytes}, x ∉ l → x ∉ l' →
    l ++ x :: r = l' ++ x :: r' → l = l' ∧ r = r' := by
  intro l
  induction l with
  | nil =>
    intro l' r r' _ hl' h
    cases l' with
    | nil => exact ⟨rfl, (List.cons.inj h).2⟩
    | cons y l' =>
      obtain ⟨rfl, _⟩ := List.cons.inj h
      exact absurd List.mem_cons_self hl'
  | cons y l ih =>
    intro l' r r' hl hl' h
    cases l' with
    | nil =>
      obtain ⟨rfl, _⟩ := List.cons.inj h
      exact absurd List.mem_cons_self hl
    | cons z l' =>
      obtain ⟨rfl, hrest⟩ := List.cons.inj h
      obtain ⟨rfl, hbehind⟩ := ih (fun hmem => hl (List.mem_cons_of_mem y hmem))
        (fun hmem => hl' (List.mem_cons_of_mem y hmem)) hrest
      exact ⟨rfl, hbehind⟩

theorem append_dashed_inj {dashed l l' r r' : Bytes} (hdashed : dashed.head? = some 0x2D)
    (hl : 0x2D ∉ l) (hl' : 0x2D ∉ l') (h : l ++ (dashed ++ r) = l' ++ (dashed ++ r')) :
    l = l' ∧ r = r' := by
  obtain ⟨behind, rfl⟩ := List.head?_eq_some_iff.mp hdashed
  obtain ⟨hfront, hbehind⟩ := append_cons_inj hl hl' h
  exact ⟨hfront, List.append_cancel_left hbehind⟩

/-- **A part of a text of a key is no text of a key**, unless it lacks nothing but the end of the
last line. -/
theorem lacksLineEnd_of_readKeyText (hlabel : 0x2D ∉ ascii label) (hlabel' : 0x2D ∉ ascii label')
    (h : readKeyText label b = some content) (h' : readKeyText label' p = some content')
    (hp : p <+: b) (hne : p ≠ b) : LacksLineEnd p b := by
  obtain ⟨tail, rfl⟩ := hp
  obtain ⟨inner, final, hb, hinner, hfinal⟩ := exists_of_readKeyText h
  obtain ⟨inner', final', hp, hinner', -⟩ := exists_of_readKeyText h'
  have hsame := Option.some.inj (hb.symm.trans (behindPreamble?_append hp tail))
  simp only [ascii_append, List.append_assoc] at hsame
  -- The first dash is where the label ends, the next where the digits end, then again the label.
  obtain ⟨_, hbehindLabel⟩ := append_dashed_inj (by decide) hlabel hlabel' hsame
  obtain ⟨rfl, hbehindDigits⟩ := append_dashed_inj (by decide) hinner hinner' hbehindLabel
  obtain ⟨_, rfl⟩ := append_dashed_inj (by decide) hlabel hlabel' hbehindDigits
  have htail : tail ≠ [] := by
    rintro rfl
    exact hne (List.append_nil p).symm
  have hend : IsLineEnd (final' ++ tail) :=
    hfinal.resolve_left (List.append_ne_nil_of_right_ne_nil final' htail)
  obtain ⟨before, rfl⟩ := exists_of_behindPreamble? hp
  refine ⟨before ++ (ascii "-----BEGIN " ++ (ascii (label' ++ "-----") ++
    (inner ++ ascii ("-----END " ++ label' ++ "-----")))), final' ++ tail, ?_, hend, final', ?_⟩
  · simp only [List.append_assoc]
  · simp only [List.append_assoc]

end KeyText

end LedgerGateway.Pem
