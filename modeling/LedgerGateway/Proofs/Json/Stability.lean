import LedgerGateway.Proofs.Json.Acceptance
import LedgerGateway.Proofs.Json.Printing
import LedgerGateway.Proofs.Text.Repair

/-!
# What is shown is shown the same again

Whether a result is JSON is told from its bytes, but what is laid out is the text they are shown as.
The two fit: the bytes of that text are JSON exactly if those of the result are
(`isJson_of_resembles`).  All that the grammar looks at is ASCII, and outside ASCII it makes no
difference which bytes stand in a text, nor how many (`Scan.run_of_resembles`).

The text of a result may be taken as a result itself.  If it was laid out, it is written by the
grammar for the same value, only that its texts are spelled as they are shown now
(`Value.written_respelled`).  So it is laid out again, and nothing moves (`resultText_stable`).
-/

namespace LedgerGateway.Json

open Text (IsHigh Resembles)

/-! ### Bytes outside ASCII -/

namespace Scan

variable {s t : Scan} {x : UInt8} {b c : Bytes}

/-- What is still to come of a word is ASCII. -/
def AwaitsAscii (s : Scan) : Prop := ∀ rest, s.place = .word rest → ∀ y ∈ rest, y < 0x80

theorem awaitsAscii_of_ne_word {e : List Container} {p : Place} (hp : ∀ rest, p ≠ .word rest) :
    AwaitsAscii ⟨e, p⟩ := fun rest hrest => absurd hrest (hp rest)

theorem awaitsAscii_of_beginValue {e : List Container} (h : beginValue e x = some t) :
    t.AwaitsAscii := by
  simp only [beginValue] at h
  split_ifs at h <;> cases h <;> intro rest hrest <;> cases hrest <;> simp

theorem place_of_afterValue {e : List Container} (h : afterValue e x = some t) :
    t.place = .afterValue ∨ t.place = .value ∨ t.place = .member := by
  rcases e with _ | ⟨_ | _, e⟩ <;> simp only [afterValue] at h <;> split_ifs at h <;> cases h <;>
    simp

theorem awaitsAscii_of_afterValue {e : List Container} (h : afterValue e x = some t) :
    t.AwaitsAscii := by
  intro rest hrest
  rcases place_of_afterValue h with hplace | hplace | hplace <;> rw [hplace] at hrest <;> cases hrest

theorem AwaitsAscii.step (hs : s.AwaitsAscii) (h : s.step x = some t) : t.AwaitsAscii := by
  obtain ⟨e, p⟩ := s
  cases p with
  | value =>
    simp only [Scan.step] at h
    split_ifs at h
    · exact Option.some.inj h ▸ hs
    · exact awaitsAscii_of_beginValue h
  | firstItem =>
    simp only [Scan.step] at h
    split_ifs at h
    · exact Option.some.inj h ▸ hs
    · exact Option.some.inj h ▸ awaitsAscii_of_ne_word (fun _ h => by cases h)
    · exact awaitsAscii_of_beginValue h
  | word rest =>
    have hrest : ∀ y ∈ rest, y < 0x80 := hs rest rfl
    rcases rest with _ | ⟨y, _ | ⟨z, rest⟩⟩
    · exact awaitsAscii_of_afterValue h
    · simp only [Scan.step] at h
      split_ifs at h
      exact Option.some.inj h ▸ awaitsAscii_of_ne_word (fun _ h => by cases h)
    · simp only [Scan.step] at h
      split_ifs at h
      obtain rfl := Option.some.inj h
      intro rest' hrest'
      cases hrest'
      exact (List.forall_mem_cons.mp hrest).2
  | _ =>
    by_cases hword : ∃ rest, t.place = .word rest
    · grind [Scan.step, place_of_afterValue, afterText]
    · exact awaitsAscii_of_ne_word (not_exists.mp hword)

def isInText (s : Scan) : Bool :=
  match s.place with
  | .text _ => true
  | _ => false

theorem step_high (hs : s.AwaitsAscii) (hx : ¬ x < 0x80) :
    s.step x = if s.isInText then some s else none := by
  have hne : ∀ y : UInt8, y < 0x80 → x ≠ y := fun y hy h => hx (h ▸ hy)
  have hdigit : isLeadingDigit x = false := by grind [isLeadingDigit]
  have hbegin : ∀ e, beginValue e x = none := fun e => by simp [beginValue, hne, hdigit]
  have hafter : ∀ e, afterValue e x = none := by
    intro e
    rcases e with _ | ⟨_ | _, e⟩ <;> simp [afterValue, isSpace, hne]
  obtain ⟨e, p⟩ := s
  cases p with
  | word rest =>
    rcases rest with _ | ⟨y, _ | ⟨z, rest⟩⟩
    · exact hafter e
    · have hy := hne y (hs _ rfl y List.mem_cons_self)
      simp [Scan.step, isInText, hy]
    · have hy := hne y (hs _ rfl y List.mem_cons_self)
      simp [Scan.step, isInText, hy]
  | _ =>
    grind [Scan.step, isInText, isSpace, isDigit, isLeadingDigit, isExponentMark, isSimpleEscape,
      isHexDigit]

/-- A stretch outside ASCII is passed over inside a text, and is read nowhere else. -/
theorem run_high (hs : s.AwaitsAscii) (hb : b ≠ []) (hhigh : IsHigh b) :
    s.run b = if s.isInText then some s else none := by
  induction b with
  | nil => exact absurd rfl hb
  | cons x b ih =>
    obtain ⟨hx, hhigh⟩ := List.forall_mem_cons.mp hhigh
    rw [run, List.foldlM_cons, step_high hs hx]
    cases htext : s.isInText with
    | false => rfl
    | true =>
      show s.run b = some s
      by_cases hnil : b = []
      · rw [hnil]
        rfl
      · rw [ih hnil hhigh, htext]
        rfl

/-- **The scanner does not tell bytes apart that resemble each other.** -/
theorem run_of_resembles (h : Resembles b c) : ∀ {s : Scan}, s.AwaitsAscii → s.run b = s.run c := by
  induction h with
  | nil => intro s _; rfl
  | @ascii x b c _ _ ih =>
    intro s hs
    show (s.step x).bind (run · b) = (s.step x).bind (run · c)
    cases hstep : s.step x with
    | none => rfl
    | some t => exact ih (hs.step hstep)
  | @high s' t' b c hs' hhigh ht' hhigh' _ ih =>
    intro s hs
    rw [run, run, List.foldlM_append, List.foldlM_append]
    show (s.run s').bind (run · b) = (s.run t').bind (run · c)
    rw [run_high hs hs' hhigh, run_high hs ht' hhigh']
    cases s.isInText with
    | false => rfl
    | true => exact ih hs

end Scan

theorem isJson_of_resembles {b c : Bytes} (h : Resembles b c) : isJson b = isJson c := by
  have hstart : Scan.start.AwaitsAscii := Scan.awaitsAscii_of_ne_word (fun _ h => by cases h)
  rw [isJson, isJson, Scan.run_of_resembles h hstart]

/-! ### Texts spelled as they are shown -/

theorem IsHexDigit.ascii {x : UInt8} (h : IsHexDigit x) : x < 0x80 := by
  grind [IsHexDigit, IsDigit]

/-- What resembles the content of a text may stand in a text. -/
theorem IsContent.of_resembles {b : Bytes} (hb : IsContent b) :
    ∀ {c : Bytes}, Resembles b c → IsContent c := by
  induction hb with
  | nil =>
    intro c h
    rw [h.of_nil]
    exact .nil
  | @plain x b hlow hquote hslash _ ih =>
    intro c h
    by_cases hx : x < 0x80
    · obtain ⟨d, rfl, hd⟩ := h.of_ascii_cons hx
      exact .plain hlow hquote hslash (ih hd)
    · obtain ⟨t, d, rfl, ht, hc | hd⟩ := h.of_high_cons hx
      · exact ih hc
      · exact (LazyLayout.isContent_append_iff ht).mpr (ih hd)
  | escape hx _ ih =>
    intro c h
    obtain ⟨_, rfl, hletter⟩ := h.of_ascii_cons (by decide)
    obtain ⟨_, rfl, hrest⟩ := hletter.of_ascii_cons (LazyLayout.ascii_of_mem_escapeLetters hx)
    exact .escape hx (ih hrest)
  | unicode hh hi hj hk _ ih =>
    intro c h
    obtain ⟨_, rfl, hletter⟩ := h.of_ascii_cons (by decide)
    obtain ⟨_, rfl, hfour⟩ := hletter.of_ascii_cons (by decide)
    obtain ⟨_, rfl, hthree⟩ := hfour.of_ascii_cons hh.ascii
    obtain ⟨_, rfl, htwo⟩ := hthree.of_ascii_cons hi.ascii
    obtain ⟨_, rfl, hone⟩ := htwo.of_ascii_cons hj.ascii
    obtain ⟨_, rfl, hrest⟩ := hone.of_ascii_cons hk.ascii
    exact .unicode hh hi hj hk (ih hrest)

/-- The text spelled as it is shown. -/
def TextLiteral.respelled (t : TextLiteral) : TextLiteral :=
  ⟨Text.encodeUtf8 (Text.decodeLossy t.content),
    t.isContent.of_resembles (Text.resembles_repaired t.content)⟩

mutual

/-- The value with its texts spelled as they are shown. -/
def Value.respelled : Value → Value
  | .null => .null
  | .bool b => .bool b
  | .number n => .number n
  | .text t => .text t.respelled
  | .array items => .array (respelledItems items)
  | .object members => .object (respelledMembers members)

def respelledItems : List Value → List Value
  | [] => []
  | v :: items => v.respelled :: respelledItems items

def respelledMembers : List (TextLiteral × Value) → List (TextLiteral × Value)
  | [] => []
  | (name, v) :: members => (name.respelled, v.respelled) :: respelledMembers members

end

theorem TextLiteral.shown_respelled (t : TextLiteral) : t.respelled.shown = t.shown := by
  rw [shown, shown, respelled, Text.decodeLossy_encodeUtf8]

mutual

/-- Nothing else is shown then. -/
theorem Value.pretty_respelled : ∀ (v : Value) (d : Nat), v.respelled.pretty d = v.pretty d
  | .null, _ => rfl
  | .bool _, _ => rfl
  | .number _, _ => rfl
  | .text t, _ => by
    rw [Value.respelled, Value.pretty, Value.pretty, t.shown_respelled]
  | .array items, d => by
    rw [Value.respelled, Value.pretty, Value.pretty, prettyItems_respelled]
  | .object members, d => by
    rw [Value.respelled, Value.pretty, Value.pretty, prettyMembers_respelled]

theorem prettyItems_respelled : ∀ (items : List Value) (d : Nat),
    prettyItems (respelledItems items) d = prettyItems items d
  | [], _ => rfl
  | v :: items, d => by
    rw [respelledItems, prettyItems, prettyItems, v.pretty_respelled, prettyItems_respelled]

theorem prettyMembers_respelled : ∀ (members : List (TextLiteral × Value)) (d : Nat),
    prettyMembers (respelledMembers members) d = prettyMembers members d
  | [], _ => rfl
  | (name, v) :: members, d => by
    rw [respelledMembers, prettyMembers, prettyMembers, name.shown_respelled, v.pretty_respelled,
      prettyMembers_respelled]

end

/-! ### What is shown is written by the grammar -/

open Text (encodeUtf8 encodeUtf8_append)

theorem isBlank_lineBreak (d : Nat) : IsBlank (encodeUtf8 (lineBreak d)) := by
  have hspaces : ∀ n, IsBlank ((List.replicate n ' ').flatMap String.utf8EncodeChar) := by
    intro n x hx
    obtain ⟨c, hc, hx⟩ := List.mem_flatMap.mp hx
    rw [List.eq_of_mem_replicate hc] at hx
    exact .inl (List.mem_singleton.mp hx)
  have hnewline : IsBlank (String.utf8EncodeChar '\n') := by decide
  rw [Text.encodeUtf8_eq, LazyLayout.toList_lineBreak, List.flatMap_cons]
  exact List.forall_mem_append.mpr ⟨hnewline, hspaces _⟩

theorem encodeUtf8_shown_number (n : NumberLiteral) : encodeUtf8 n.shown = n.spelling :=
  Text.encodeUtf8_of_ascii fun x hx => (LazyLayout.isWord_of_isNumber n.isNumber x hx).1

theorem encodeUtf8_shown_text (t : TextLiteral) : encodeUtf8 t.shown = t.respelled.quoted := by
  rw [TextLiteral.shown, encodeUtf8_append, encodeUtf8_append]
  rfl

theorem encodeUtf8_container {opening closing : String} {d : Nat} {lines : List String}
    (h : lines ≠ []) : encodeUtf8 (container opening closing d lines) =
      encodeUtf8 opening ++ ((encodeUtf8 (lineBreak (d + 1)) ++
        (encodeUtf8 (String.intercalate ("," ++ lineBreak (d + 1)) lines) ++
          encodeUtf8 (lineBreak d))) ++ encodeUtf8 closing) := by
  rw [container_of_ne_nil h]
  simp only [encodeUtf8_append, List.append_assoc]

theorem encodeUtf8_intercalate {line : String} {lines : List String} {d : Nat} (h : lines ≠ []) :
    encodeUtf8 (String.intercalate ("," ++ lineBreak d) (line :: lines)) =
      encodeUtf8 line ++ 0x2C :: (encodeUtf8 (lineBreak d) ++
        encodeUtf8 (String.intercalate ("," ++ lineBreak d) lines)) := by
  have hcomma : encodeUtf8 "," = [0x2C] := by decide
  rw [String.intercalate_cons_of_ne_nil h]
  simp only [encodeUtf8_append, hcomma, List.append_assoc, List.singleton_append]
  rfl

mutual

/-- **What is shown of a value is a way to write it**, when its texts are spelled as they are
shown. -/
theorem Value.written_respelled : ∀ (v : Value) (d : Nat),
    v.respelled.Written (encodeUtf8 (v.pretty d))
  | .null, _ => .null
  | .bool true, _ => .true
  | .bool false, _ => .false
  | .number n, d => by
    rw [Value.pretty, encodeUtf8_shown_number]
    exact .number n
  | .text t, d => by
    rw [Value.pretty, encodeUtf8_shown_text]
    exact .text _
  | .array [], _ => .emptyArray isBlank_nil
  | .array (v :: items), d => by
    rw [Value.pretty, encodeUtf8_container (by simp [prettyItems])]
    exact .array (itemsWritten_respelled (v :: items) (List.cons_ne_nil _ _) (d + 1)
      (isBlank_lineBreak d))
  | .object [], _ => .emptyObject isBlank_nil
  | .object ((name, v) :: members), d => by
    rw [Value.pretty, encodeUtf8_container (by simp [prettyMembers])]
    exact .object (membersWritten_respelled ((name, v) :: members) (List.cons_ne_nil _ _) (d + 1)
      (isBlank_lineBreak d))

/-- The lines of items, and white space behind the last. -/
theorem itemsWritten_respelled : ∀ (items : List Value), items ≠ [] → ∀ (d : Nat) {t : Bytes},
    IsBlank t → ItemsWritten (respelledItems items) (encodeUtf8 (lineBreak d) ++
      (encodeUtf8 (String.intercalate ("," ++ lineBreak d) (prettyItems items d)) ++ t))
  | [], h, _, _, _ => absurd rfl h
  | [v], _, d, t, ht => by
    rw [prettyItems, prettyItems, String.intercalate_singleton]
    exact .last (.intro (isBlank_lineBreak d) (v.written_respelled d) ht)
  | v :: w :: items, _, d, t, ht => by
    have hline := Value.Spaced.intro (isBlank_lineBreak d) (v.written_respelled d) isBlank_nil
    have hmore := ItemsWritten.more hline
      (itemsWritten_respelled (w :: items) (List.cons_ne_nil _ _) d ht)
    rw [respelledItems, prettyItems, encodeUtf8_intercalate (by simp [prettyItems])]
    simpa only [List.append_assoc, List.cons_append, List.append_nil] using hmore

/-- The lines of members, and white space behind the last. -/
theorem membersWritten_respelled : ∀ (members : List (TextLiteral × Value)), members ≠ [] →
    ∀ (d : Nat) {t : Bytes}, IsBlank t →
    MembersWritten (respelledMembers members) (encodeUtf8 (lineBreak d) ++
      (encodeUtf8 (String.intercalate ("," ++ lineBreak d) (prettyMembers members d)) ++ t))
  | [], h, _, _, _ => absurd rfl h
  | [(name, v)], _, d, t, ht => by
    have hvalue := Value.Spaced.intro (s := [0x20]) (by decide) (v.written_respelled d) ht
    have hlast : MembersWritten [(name.respelled, v.respelled)] _ :=
      .last (isBlank_lineBreak d) isBlank_nil hvalue
    have hcolon : encodeUtf8 ": " = [0x3A, 0x20] := by decide
    rw [respelledMembers, respelledMembers, prettyMembers, prettyMembers,
      String.intercalate_singleton, encodeUtf8_append,
      encodeUtf8_append, encodeUtf8_shown_text, hcolon]
    simpa only [List.append_assoc, List.cons_append, List.nil_append] using hlast
  | (name, v) :: m :: members, _, d, t, ht => by
    have hvalue := Value.Spaced.intro (s := [0x20]) (by decide) (v.written_respelled d) isBlank_nil
    have hmore : MembersWritten ((name.respelled, v.respelled) :: _) _ :=
      .more (isBlank_lineBreak d) isBlank_nil hvalue
        (membersWritten_respelled (m :: members) (List.cons_ne_nil _ _) d ht)
    have hcolon : encodeUtf8 ": " = [0x3A, 0x20] := by decide
    rw [respelledMembers, prettyMembers, encodeUtf8_intercalate (by simp [prettyMembers]),
      encodeUtf8_append, encodeUtf8_append, encodeUtf8_shown_text, hcolon]
    simpa only [List.append_assoc, List.cons_append, List.nil_append, List.append_nil] using hmore

end

theorem resultText_of_not_isJson {b : Bytes} (hb : b ≠ []) (h : isJson b = false) :
    resultText b = some (Text.decodeLossy b) := by
  have hisEmpty : b.isEmpty = false := List.isEmpty_eq_false_iff.mpr hb
  simp [resultText, hisEmpty, h]

/-- **What is shown is shown the same again.**  Whether bytes are JSON can be told from the text they
are shown as, too.  And the text of a result, taken as a result, has itself as its text and is JSON
exactly if the result was. -/
theorem resultText_stable (b : Bytes) :
    isJson (encodeUtf8 (Text.decodeLossy b)) = isJson b ∧
      (b ≠ [] → ∃ text, resultText b = some text ∧
        resultText (encodeUtf8 text) = some text ∧ isJson (encodeUtf8 text) = isJson b) := by
  have hresembles := Text.resembles_repaired b
  have hisJson := (isJson_of_resembles hresembles).symm
  refine ⟨hisJson, fun hb => ?_⟩
  cases hjson : isJson b with
  | false =>
    rw [hjson] at hisJson
    have hagain := resultText_of_not_isJson (hresembles.ne_nil hb) hisJson
    rw [Text.decodeLossy_encodeUtf8] at hagain
    exact ⟨_, resultText_of_not_isJson hb hjson, hagain, hisJson⟩
  | true =>
    obtain ⟨v, hv⟩ := isJson_iff.mp hjson
    have hwritten : v.respelled.Spaced (encodeUtf8 (v.pretty 0)) := (v.written_respelled 0).spaced
    have hagain := hwritten.resultText_eq
    rw [v.pretty_respelled] at hagain
    exact ⟨_, hv.resultText_eq, hagain, hwritten.isJson⟩

/-- A text that holds a byte which is no character, and the byte by itself. -/
theorem resultText_stable_sample :
    (([0x22, 0xFF, 0x22] : Bytes) ≠ [] ∧
      ∃ text, resultText [0x22, 0xFF, 0x22] = some text ∧
        resultText (encodeUtf8 text) = some text ∧ isJson (encodeUtf8 text) = true) ∧
    (([0xFF] : Bytes) ≠ [] ∧
      ∃ text, resultText [0xFF] = some text ∧
        resultText (encodeUtf8 text) = some text ∧ isJson (encodeUtf8 text) = false) := by
  have hjson : isJson [0x22, 0xFF, 0x22] = true := by decide
  have hraw : isJson [0xFF] = false := by decide
  refine ⟨⟨by decide, ?_⟩, ⟨by decide, ?_⟩⟩
  · rw [← hjson]
    exact (resultText_stable [0x22, 0xFF, 0x22]).2 (by decide)
  · rw [← hraw]
    exact (resultText_stable [0xFF]).2 (by decide)

end LedgerGateway.Json
