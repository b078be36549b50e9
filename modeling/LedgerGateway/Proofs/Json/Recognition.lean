import LedgerGateway.Json.Scan
import LedgerGateway.Proofs.Json.Value

/-!
# What is written is recognised

The scanner reads one byte at a time and keeps a row of open containers.  Here it is followed along
a value that is written by the grammar: from a place where a value may begin it comes to a place
where a value is complete (`Place.IsDone`), and the row of open containers is the same again
(`Value.Written.run`).  So a value with white space around it is recognised (`Value.Spaced.isJson`).

There are five places where a value is complete.  Behind a number the scanner stands on its last
digit and does not know yet that the number has ended.  But white space, a comma and a closing
bracket are read in all five places alike (`step_of_isDone`).
-/

namespace LedgerGateway.Json

/-- A value is complete here. -/
def Place.IsDone (p : Place) : Prop :=
  p = .afterValue ∨ p = .zero ∨ p = .whole ∨ p = .fraction ∨ p = .power

/-- White space is passed over here. -/
def Place.SkipsSpace (p : Place) : Prop :=
  p = .value ∨ p = .firstItem ∨ p = .firstMember ∨ p = .member ∨ p = .colon

namespace Scan

variable {s t : Scan} {e : List Container} {p : Place} {x : UInt8} {b c : Bytes}

theorem isSpace_iff : isSpace x = true ↔ IsSpace x := by
  simp [isSpace, IsSpace, or_assoc]

/-! ### Runs -/

theorem run_cons_of_step (h : s.step x = some t) (b : Bytes) : s.run (x :: b) = t.run b := by
  simp [run, h]

theorem run_append_of_run (h : s.run b = some t) (c : Bytes) : s.run (b ++ c) = t.run c := by
  rw [run] at h
  simp [run, List.foldlM_append, h]

/-! ### White space -/

theorem step_of_isDone (hp : p.IsDone) (hx : IsSpace x ∨ x = 0x2C ∨ x = 0x5D ∨ x = 0x7D) :
    step ⟨e, p⟩ x = afterValue e x := by
  rcases hp with rfl | rfl | rfl | rfl | rfl <;>
    grind [step, isDigit, isExponentMark, IsSpace]

theorem afterValue_of_isSpace (hx : IsSpace x) : afterValue e x = some ⟨e, .afterValue⟩ := by
  simp [afterValue, isSpace_iff.mpr hx]

theorem run_blank (hp : p.SkipsSpace) : ∀ {b : Bytes}, IsBlank b →
    run ⟨e, p⟩ b = some ⟨e, p⟩ := by
  intro b
  induction b with
  | nil => intro _; rfl
  | cons x b ih =>
    intro hb
    have hx : isSpace x = true := isSpace_iff.mpr (hb x List.mem_cons_self)
    have hstep : step ⟨e, p⟩ x = some ⟨e, p⟩ := by
      rcases hp with rfl | rfl | rfl | rfl | rfl <;> simp [step, hx]
    rw [run_cons_of_step hstep]
    exact ih fun y hy => hb y (List.mem_cons_of_mem x hy)

theorem run_blank_of_isDone (hp : p.IsDone) : ∀ {b : Bytes}, IsBlank b →
    ∃ q : Place, q.IsDone ∧ run ⟨e, p⟩ b = some ⟨e, q⟩ := by
  intro b
  induction b generalizing p with
  | nil => intro _; exact ⟨p, hp, rfl⟩
  | cons x b ih =>
    intro hb
    have hx : IsSpace x := hb x List.mem_cons_self
    have hstep : step ⟨e, p⟩ x = some ⟨e, .afterValue⟩ := by
      rw [step_of_isDone hp (.inl hx), afterValue_of_isSpace hx]
    rw [run_cons_of_step hstep]
    exact ih (.inl rfl) fun y hy => hb y (List.mem_cons_of_mem x hy)

/-! ### Numbers -/

/-- A place of which a digit leads to itself. -/
theorem run_digits (hstep : ∀ x, IsDigit x → step ⟨e, p⟩ x = some ⟨e, p⟩) :
    ∀ {b : Bytes}, (∀ x ∈ b, IsDigit x) → run ⟨e, p⟩ b = some ⟨e, p⟩ := by
  intro b
  induction b with
  | nil => intro _; rfl
  | cons x b ih =>
    intro hb
    rw [run_cons_of_step (hstep x (hb x List.mem_cons_self))]
    exact ih fun y hy => hb y (List.mem_cons_of_mem x hy)

/-- Digits, of which the first leads to a place and the others stay there. -/
theorem run_isDigits {q : Place} (hfirst : ∀ x, IsDigit x → step ⟨e, p⟩ x = some ⟨e, q⟩)
    (hstep : ∀ x, IsDigit x → step ⟨e, q⟩ x = some ⟨e, q⟩) (hb : IsDigits b) :
    run ⟨e, p⟩ b = some ⟨e, q⟩ := by
  obtain ⟨hne, hall⟩ := hb
  cases b with
  | nil => exact absurd rfl hne
  | cons x b =>
    rw [run_cons_of_step (hfirst x (hall x List.mem_cons_self))]
    exact run_digits hstep fun y hy => hall y (List.mem_cons_of_mem x hy)

theorem run_whole (hp : p = .value ∨ p = .minus) (hb : IsWhole b) :
    ∃ q : Place, (q = .zero ∨ q = .whole) ∧ run ⟨e, p⟩ b = some ⟨e, q⟩ := by
  cases hb with
  | zero =>
    refine ⟨.zero, .inl rfl, ?_⟩
    rcases hp with rfl | rfl <;> rfl
  | @digits x b hx hb =>
    refine ⟨.whole, .inr rfl, ?_⟩
    have hfirst : step ⟨e, p⟩ x = some ⟨e, .whole⟩ := by
      rcases hp with rfl | rfl <;>
        grind [step, beginValue, isSpace, isLeadingDigit, IsLeadingDigit]
    have hstep : ∀ y, IsDigit y → step ⟨e, .whole⟩ y = some ⟨e, .whole⟩ := by
      grind [step, isDigit, IsDigit]
    rw [run_cons_of_step hfirst]
    exact run_digits hstep hb

theorem run_fraction (hp : p = .zero ∨ p = .whole) (hb : IsFraction b) :
    ∃ q : Place, (q = .zero ∨ q = .whole ∨ q = .fraction) ∧ run ⟨e, p⟩ b = some ⟨e, q⟩ := by
  cases hb with
  | none =>
    refine ⟨p, ?_, rfl⟩
    rcases hp with rfl | rfl
    · exact .inl rfl
    · exact .inr (.inl rfl)
  | point hdigits =>
    refine ⟨.fraction, .inr (.inr rfl), ?_⟩
    have hpoint : step ⟨e, p⟩ 0x2E = some ⟨e, .point⟩ := by
      rcases hp with rfl | rfl <;> rfl
    rw [run_cons_of_step hpoint]
    refine run_isDigits ?_ ?_ hdigits
    · grind [step, isDigit, IsDigit]
    · grind [step, isDigit, IsDigit]

theorem run_exponent (hp : p = .zero ∨ p = .whole ∨ p = .fraction) (hb : IsExponent b) :
    ∃ q : Place, q.IsDone ∧ run ⟨e, p⟩ b = some ⟨e, q⟩ := by
  cases hb with
  | none =>
    refine ⟨p, ?_, rfl⟩
    rcases hp with rfl | rfl | rfl <;> simp [Place.IsDone]
  | @mark x sign b hmark hsign hdigits =>
    refine ⟨.power, by simp [Place.IsDone], ?_⟩
    have hexponent : step ⟨e, p⟩ x = some ⟨e, .exponent⟩ := by
      rcases hp with rfl | rfl | rfl <;> rcases hmark with rfl | rfl <;> rfl
    have hpower : ∀ y, IsDigit y → step ⟨e, .power⟩ y = some ⟨e, .power⟩ := by
      grind [step, isDigit, IsDigit]
    rw [run_cons_of_step hexponent]
    have hdirect : ∀ y, IsDigit y → step ⟨e, .exponent⟩ y = some ⟨e, .power⟩ := by
      grind [step, isDigit, IsDigit]
    have hsigned : ∀ y, IsDigit y → step ⟨e, .exponentSign⟩ y = some ⟨e, .power⟩ := by
      grind [step, isDigit, IsDigit]
    rcases hsign with rfl | rfl | rfl
    · exact run_isDigits hdirect hpower hdigits
    · exact (run_cons_of_step rfl _).trans (run_isDigits hsigned hpower hdigits)
    · exact (run_cons_of_step rfl _).trans (run_isDigits hsigned hpower hdigits)

/-- A number without its sign. -/
theorem run_unsigned {whole fraction exponent : Bytes} (hp : p = .value ∨ p = .minus)
    (hwhole : IsWhole whole) (hfraction : IsFraction fraction) (hexponent : IsExponent exponent) :
    ∃ q : Place, q.IsDone ∧ run ⟨e, p⟩ (whole ++ (fraction ++ exponent)) = some ⟨e, q⟩ := by
  obtain ⟨q, hq, hrun⟩ := run_whole (e := e) hp hwhole
  obtain ⟨r, hr, hrun'⟩ := run_fraction (e := e) hq hfraction
  rw [run_append_of_run hrun, run_append_of_run hrun']
  exact run_exponent hr hexponent

theorem run_number (hb : IsNumber b) :
    ∃ q : Place, q.IsDone ∧ run ⟨e, .value⟩ b = some ⟨e, q⟩ := by
  obtain ⟨rfl | rfl, hwhole, hfraction, hexponent⟩ := hb
  · rw [List.nil_append]
    exact run_unsigned (.inl rfl) hwhole hfraction hexponent
  · have hminus : step ⟨e, .value⟩ 0x2D = some ⟨e, .minus⟩ := rfl
    rw [List.singleton_append, run_cons_of_step hminus]
    exact run_unsigned (.inr rfl) hwhole hfraction hexponent

/-! ### Texts -/

theorem run_content {isName : Bool} (hb : IsContent b) :
    run ⟨e, .text isName⟩ b = some ⟨e, .text isName⟩ := by
  induction hb with
  | nil => rfl
  | @plain x b hlow hquote hslash _ ih =>
    have hstep : step ⟨e, .text isName⟩ x = some ⟨e, .text isName⟩ := by grind [step]
    rw [run_cons_of_step hstep, ih]
  | @escape x b hx _ ih =>
    have hstep : step ⟨e, .escape isName⟩ x = some ⟨e, .text isName⟩ := by
      have hletter : isSimpleEscape x = true := by
        simpa [isSimpleEscape, escapeLetters, or_assoc] using hx
      simp [step, hletter]
    rw [run_cons_of_step (t := ⟨e, .escape isName⟩) rfl, run_cons_of_step hstep, ih]
  | @unicode h i j k b hh hi hj hk _ ih =>
    have hdigit : ∀ x, IsHexDigit x → isHexDigit x = true := by
      grind [IsHexDigit, IsDigit, isHexDigit, isDigit]
    rw [run_cons_of_step (t := ⟨e, .escape isName⟩) rfl,
      run_cons_of_step (t := ⟨e, .unicode isName 4⟩) rfl,
      run_cons_of_step (t := ⟨e, .unicode isName 3⟩) (by simp [step, hdigit h hh]),
      run_cons_of_step (t := ⟨e, .unicode isName 2⟩) (by simp [step, hdigit i hi]),
      run_cons_of_step (t := ⟨e, .unicode isName 1⟩) (by simp [step, hdigit j hj]),
      run_cons_of_step (t := ⟨e, .text isName⟩) (by simp [step, hdigit k hk]), ih]

theorem run_quoted (isName : Bool) (t : TextLiteral)
    (hstep : step ⟨e, p⟩ 0x22 = some ⟨e, .text isName⟩) :
    run ⟨e, p⟩ t.quoted = some ⟨e, afterText isName⟩ := by
  rw [TextLiteral.quoted, run_cons_of_step hstep, run_append_of_run (run_content t.isContent)]
  rfl

end Scan

/-! ### Values -/

open Scan

/-- Where an array was just opened its first item is read as any other. -/
theorem ItemsWritten.run_firstItem {items : List Value} {b : Bytes} (h : ItemsWritten items b)
    (e : List Container) : run ⟨e, .firstItem⟩ b = run ⟨e, .value⟩ b := by
  obtain ⟨s, x, rest, rfl, hs, -, hspace, hclose, -⟩ := h.head
  have hx : isSpace x = false := by
    rw [← Bool.not_eq_true, isSpace_iff]
    exact hspace
  have hstep : step ⟨e, .firstItem⟩ x = step ⟨e, .value⟩ x := by simp [step, hx, hclose]
  rw [run_append_of_run (run_blank (by simp [Place.SkipsSpace]) hs),
    run_append_of_run (run_blank (by simp [Place.SkipsSpace]) hs)]
  simp only [run, List.foldlM_cons, hstep]

/-- Where an object was just opened its first member is read as any other. -/
theorem MembersWritten.run_firstMember {members : List (TextLiteral × Value)} {b : Bytes}
    (h : MembersWritten members b) (e : List Container) :
    run ⟨e, .firstMember⟩ b = run ⟨e, .member⟩ b := by
  obtain ⟨s, rest, rfl, hs⟩ := h.head
  rw [run_append_of_run (run_blank (by simp [Place.SkipsSpace]) hs),
    run_append_of_run (run_blank (by simp [Place.SkipsSpace]) hs)]
  rfl

/-- The name of a member and the colon behind it. -/
theorem run_name (name : TextLiteral) {s t : Bytes} (hs : IsBlank s) (ht : IsBlank t)
    (e : List Container) (b : Bytes) :
    run ⟨e, .member⟩ (s ++ (name.quoted ++ (t ++ 0x3A :: b))) = run ⟨e, .value⟩ b := by
  have hname : run ⟨e, .member⟩ name.quoted = some ⟨e, .colon⟩ := run_quoted true name rfl
  rw [run_append_of_run (run_blank (by simp [Place.SkipsSpace]) hs),
    run_append_of_run hname,
    run_append_of_run (run_blank (by simp [Place.SkipsSpace]) ht),
    run_cons_of_step (t := ⟨e, .value⟩) rfl]

mutual

/-- **The scanner reads a value and is where it was, behind a value.** -/
theorem Value.Written.run : ∀ {v : Value} {b : Bytes}, v.Written b → ∀ e : List Container,
    ∃ p : Place, p.IsDone ∧ Scan.run ⟨e, .value⟩ b = some ⟨e, p⟩
  | _, _, .null, _ => ⟨.afterValue, .inl rfl, rfl⟩
  | _, _, .true, _ => ⟨.afterValue, .inl rfl, rfl⟩
  | _, _, .false, _ => ⟨.afterValue, .inl rfl, rfl⟩
  | _, _, .number n, _ => run_number n.isNumber
  | _, _, .text t, _ => ⟨.afterValue, .inl rfl, run_quoted false t rfl⟩
  | _, _, .emptyArray hs, e => by
    refine ⟨.afterValue, .inl rfl, ?_⟩
    rw [run_cons_of_step (t := ⟨.array :: e, .firstItem⟩) rfl,
      run_append_of_run (run_blank (by simp [Place.SkipsSpace]) hs)]
    rfl
  | _, _, .array hitems, e => by
    refine ⟨.afterValue, .inl rfl, ?_⟩
    obtain ⟨p, hp, hrun⟩ := hitems.run e
    rw [run_cons_of_step (t := ⟨.array :: e, .firstItem⟩) rfl,
      run_append_of_run ((hitems.run_firstItem _).trans hrun),
      run_cons_of_step (step_of_isDone hp (by simp))]
    rfl
  | _, _, .emptyObject hs, e => by
    refine ⟨.afterValue, .inl rfl, ?_⟩
    rw [run_cons_of_step (t := ⟨.object :: e, .firstMember⟩) rfl,
      run_append_of_run (run_blank (by simp [Place.SkipsSpace]) hs)]
    rfl
  | _, _, .object hmembers, e => by
    refine ⟨.afterValue, .inl rfl, ?_⟩
    obtain ⟨p, hp, hrun⟩ := hmembers.run e
    rw [run_cons_of_step (t := ⟨.object :: e, .firstMember⟩) rfl,
      run_append_of_run ((hmembers.run_firstMember _).trans hrun),
      run_cons_of_step (step_of_isDone hp (by simp))]
    rfl

theorem Value.Spaced.run : ∀ {v : Value} {b : Bytes}, v.Spaced b → ∀ e : List Container,
    ∃ p : Place, p.IsDone ∧ Scan.run ⟨e, .value⟩ b = some ⟨e, p⟩
  | _, _, .intro hs hv ht, e => by
    obtain ⟨p, hp, hrun⟩ := hv.run e
    rw [run_append_of_run (run_blank (by simp [Place.SkipsSpace]) hs), run_append_of_run hrun]
    exact run_blank_of_isDone hp ht

theorem ItemsWritten.run : ∀ {items : List Value} {b : Bytes}, ItemsWritten items b →
    ∀ e : List Container,
      ∃ p : Place, p.IsDone ∧ Scan.run ⟨.array :: e, .value⟩ b = some ⟨.array :: e, p⟩
  | _, _, .last hv, e => hv.run (.array :: e)
  | _, _, .more hv hitems, e => by
    obtain ⟨p, hp, hrun⟩ := hv.run (.array :: e)
    rw [run_append_of_run hrun, run_cons_of_step (step_of_isDone hp (by simp))]
    exact hitems.run e

theorem MembersWritten.run : ∀ {members : List (TextLiteral × Value)} {b : Bytes},
    MembersWritten members b → ∀ e : List Container,
      ∃ p : Place, p.IsDone ∧ Scan.run ⟨.object :: e, .member⟩ b = some ⟨.object :: e, p⟩
  | _, _, .last hs ht hv, e => by
    rw [run_name _ hs ht]
    exact hv.run (.object :: e)
  | _, _, .more hs ht hv hmembers, e => by
    obtain ⟨p, hp, hrun⟩ := hv.run (.object :: e)
    rw [run_name _ hs ht, run_append_of_run hrun,
      run_cons_of_step (step_of_isDone hp (by simp))]
    exact hmembers.run e

end

/-- **A value with white space around it is recognised.** -/
theorem Value.Spaced.isJson {v : Value} {b : Bytes} (h : v.Spaced b) : isJson b = true := by
  obtain ⟨p, hp, hrun⟩ := h.run []
  rw [Json.isJson, start, hrun]
  rcases hp with rfl | rfl | rfl | rfl | rfl <;> rfl

end LedgerGateway.Json
