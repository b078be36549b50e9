import LedgerGateway.Json.Layout
import Mathlib.Data.List.Basic

/-!
# Laying out without looking ahead

`Layout.step` looks ahead behind an opening bracket, so it takes more than one character at a time,
and a text cannot be cut anywhere to lay out its parts one after the other.  `LazyLayout` takes one
character after another.  Behind an opening bracket it waits: the line is not begun, and the depth
not raised, before something has come that is neither white space nor a closing bracket.

What the one remembers tells what the other does (`LazyLayout.layout`).  A step of the one is one or
more of the other (`LazyLayout.IsSettled.comesTo_step`), so both come to the same in the end
(`LazyLayout.run_layout`), and wherever the layout stands between two steps, it is told by the lazy
layout of what is behind it (`Layout.Reaches.exists_after`).
-/

namespace LedgerGateway.Json

namespace Layout

variable {l : Layout} {c : Char} {rest : List Char}

/-! ### Steps -/

theorem lookAhead_of_isSpace (hc : isSpace c = true) :
    l.lookAhead (c :: rest) = l.lookAhead rest := by
  rw [lookAhead, List.dropWhile_cons_of_pos hc, lookAhead]

theorem lookAhead_of_not_isSpace (hc : ¬ isSpace c = true) :
    l.lookAhead (c :: rest) = if isClosing c then (l.put c, rest) else (l.indent, c :: rest) := by
  rw [lookAhead, List.dropWhile_cons_of_neg hc]

/-- Outside texts nothing is escaped. -/
theorem escaped_step (hl : l.escaped = true → l.inText = true)
    (h : ¬ (l.inText = false ∧ isOpening c = true)) :
    (l.step c rest).1.escaped = true → (l.step c rest).1.inText = true := by
  unfold step copy
  repeat' split
  all_goals simp_all [put, newLine, outdent]

/-! ### All steps through a text -/

theorem run_nil (l : Layout) : l.run [] = l := by
  rw [run]

theorem run_cons (l : Layout) (c : Char) (rest : List Char) :
    l.run (c :: rest) = (l.step c rest).1.run (l.step c rest).2 := by
  rw [run]

/-- Laying out a text leads to these states between two steps, with so much of the text left. -/
inductive Reaches (text : String) : Layout → List Char → Prop where
  | start : Reaches text .start text.toList
  | step {l : Layout} {c : Char} {rest : List Char} : Reaches text l (c :: rest) →
      Reaches text (l.step c rest).1 (l.step c rest).2

/-- From any state the steps lead to the end. -/
theorem Reaches.run {text : String} (h : Reaches text l rest) : Reaches text (l.run rest) [] := by
  induction hn : rest.length using Nat.strongRecOn generalizing l rest with
  | _ n ih =>
    subst hn
    cases rest with
    | nil => rwa [run_nil]
    | cons c rest =>
      rw [run_cons]
      exact ih _ (Nat.lt_succ_of_le (length_step_le l c rest)) h.step rfl

end Layout

/-! ### The lazy layout -/

/-- Where in the text the writing stands. -/
inductive LazyLayout.Mode where
  /-- Outside texts. -/
  | plain
  /-- Behind an opening bracket, with the line still to be begun. -/
  | opened
  /-- Inside a text. -/
  | text
  /-- Inside a text, behind a backslash. -/
  | escaped
deriving DecidableEq

structure LazyLayout where
  written : String
  depth : Nat
  mode : LazyLayout.Mode

namespace LazyLayout

open Layout (isSpace isOpening isClosing)

def start : LazyLayout := ⟨"", 0, .plain⟩

/-- What the layout remembers.  It does not wait with the line. -/
def layout : LazyLayout → Layout
  | ⟨w, d, .plain⟩ => ⟨w, d, false, false⟩
  | ⟨w, d, .opened⟩ => Layout.indent ⟨w, d, false, false⟩
  | ⟨w, d, .text⟩ => ⟨w, d, true, false⟩
  | ⟨w, d, .escaped⟩ => ⟨w, d, true, true⟩

/-- The same as the layout, with nothing to wait for. -/
def ofLayout (l : Layout) : LazyLayout :=
  ⟨l.written, l.depth, if l.inText then if l.escaped then .escaped else .text else .plain⟩

/-- Goes on as the layout does, but waits behind an opening bracket. -/
def token (l : Layout) (c : Char) : LazyLayout :=
  if !l.inText && isOpening c then ⟨l.written.push c, l.depth, .opened⟩
  else ofLayout (l.step c []).1

/-- Lays out one character. -/
def step (m : LazyLayout) (c : Char) : LazyLayout :=
  if m.mode = .opened then
    if isSpace c then m
    else if isClosing c then ⟨m.written.push c, m.depth, .plain⟩
    else token m.layout c
  else token m.layout c

/-! ### One step for several -/

variable {m : LazyLayout} {l : Layout} {c : Char} {rest : List Char} {next : Layout × List Char}

/-- The lazy layout does not wait for what comes next. -/
def IsSettled (m : LazyLayout) (rest : List Char) : Prop :=
  m.mode = .opened → ∀ c ∈ rest.head?, isSpace c = false ∧ isClosing c = false

/-- The lazy layout gets as far as the layout did, and has not to wait there. -/
def ComesTo (m : LazyLayout) (rest : List Char) (next : Layout × List Char) : Prop :=
  ∃ taken, rest = taken ++ next.2 ∧ next.1 = (taken.foldl step m).layout ∧
    (taken.foldl step m).IsSettled next.2

theorem ComesTo.refl (h : m.IsSettled rest) : m.ComesTo rest (m.layout, rest) :=
  ⟨[], rfl, rfl, h⟩

theorem ComesTo.cons (h : (m.step c).ComesTo rest next) : m.ComesTo (c :: rest) next := by
  obtain ⟨taken, rfl, hlayout, hsettled⟩ := h
  exact ⟨c :: taken, rfl, hlayout, hsettled⟩

theorem IsSettled.step_eq (h : m.IsSettled (c :: rest)) : m.step c = token m.layout c := by
  by_cases hmode : m.mode = .opened
  · obtain ⟨hspace, hclosing⟩ := h hmode c rfl
    simp [step, hmode, hspace, hclosing]
  · rw [step, if_neg hmode]

theorem isSettled_ofLayout (l : Layout) (rest : List Char) : (ofLayout l).IsSettled rest := by
  have hmode : (ofLayout l).mode ≠ .opened := by
    unfold ofLayout
    repeat' split
    all_goals exact nofun
  exact fun h => absurd h hmode

/-- Outside texts white space is dropped. -/
theorem step_space {w : String} {d : Nat} {mode : Mode} (hmode : mode = .plain ∨ mode = .opened)
    (hc : isSpace c = true) : step ⟨w, d, mode⟩ c = ⟨w, d, mode⟩ := by
  have hopening : isOpening c = false := by
    have hchar : ((c = ' ' ∨ c = '\t') ∨ c = '\n') ∨ c = '\r' := by
      simpa [isSpace] using hc
    rcases hchar with ((rfl | rfl) | rfl) | rfl <;> rfl
  rcases hmode with rfl | rfl <;>
    simp [step, token, layout, Layout.step, ofLayout, hc, hopening]

/-- **Looking ahead is to go on and wait.**  The induction is on the white space. -/
theorem comesTo_lookAhead (w : String) (d : Nat) : ∀ rest : List Char,
    ComesTo ⟨w, d, .opened⟩ rest (Layout.lookAhead ⟨w, d, false, false⟩ rest) := by
  intro rest
  induction rest with
  | nil => exact .refl nofun
  | cons c rest ih =>
    by_cases hspace : isSpace c = true
    · rw [Layout.lookAhead_of_isSpace hspace]
      refine .cons ?_
      rwa [step_space (.inr rfl) hspace]
    · rw [Layout.lookAhead_of_not_isSpace hspace]
      by_cases hclosing : isClosing c = true
      · have hstep : step ⟨w, d, .opened⟩ c = ⟨w.push c, d, .plain⟩ := by
          simp [step, hspace, hclosing]
        rw [if_pos hclosing]
        refine .cons ?_
        rw [hstep]
        exact .refl nofun
      · rw [if_neg hclosing]
        refine .refl (m := ⟨w, d, .opened⟩) ?_
        rintro _ x ⟨⟩
        exact ⟨by simpa using hspace, by simpa using hclosing⟩

theorem layout_ofLayout (h : l.escaped = true → l.inText = true) : (ofLayout l).layout = l := by
  obtain ⟨w, d, inText, escaped⟩ := l
  cases inText with
  | true => cases escaped <;> rfl
  | false =>
    cases escaped with
    | true => exact absurd (h rfl) nofun
    | false => rfl

theorem escaped_layout (m : LazyLayout) : m.layout.escaped = true → m.layout.inText = true := by
  obtain ⟨w, d, mode⟩ := m
  cases mode with
  | plain | opened => exact nofun
  | text | escaped => exact fun _ => rfl

/-- **A step of the layout is one or more of the lazy one.** -/
theorem IsSettled.comesTo_step (h : m.IsSettled (c :: rest)) :
    m.ComesTo (c :: rest) (m.layout.step c rest) := by
  refine .cons ?_
  rw [h.step_eq]
  have hescaped := escaped_layout m
  generalize m.layout = l at hescaped
  by_cases hopening : l.inText = false ∧ isOpening c = true
  · obtain ⟨w, d, inText, escaped⟩ := l
    obtain ⟨rfl, hopening⟩ := hopening
    obtain rfl : escaped = false := by simpa using hescaped
    have htoken : token ⟨w, d, false, false⟩ c = ⟨w.push c, d, .opened⟩ := by
      simp [token, hopening]
    rw [Layout.step_of_isOpening rfl hopening, htoken]
    exact comesTo_lookAhead (w.push c) d rest
  · have htoken : token l c = ofLayout (l.step c []).1 := by
      rw [token, if_neg (by simpa using hopening)]
    have hrefl := ComesTo.refl (isSettled_ofLayout (l.step c []).1 rest)
    rwa [layout_ofLayout (Layout.escaped_step hescaped hopening), ← htoken,
      ← Layout.step_of_not_isOpening hopening] at hrefl

/-- **In the end both have come to the same**, whatever the text is.  The induction is on what is
left of it, which is shorter after each step of the layout. -/
theorem run_layout (h : m.IsSettled rest) :
    m.layout.run rest = (rest.foldl step m).layout := by
  induction hn : rest.length using Nat.strongRecOn generalizing rest m with
  | _ n ih =>
    subst hn
    cases rest with
    | nil => rw [Layout.run_nil, List.foldl_nil]
    | cons c rest =>
      obtain ⟨taken, htaken, hlayout, hsettled⟩ := h.comesTo_step
      rw [Layout.run_cons, hlayout,
        ih _ (Nat.lt_succ_of_le (Layout.length_step_le m.layout c rest)) hsettled rfl, htaken,
        List.foldl_append]

/-- The lazy layout of the beginning of a text. -/
def after (a : List Char) : LazyLayout := a.foldl step start

end LazyLayout

/-- **Between two steps the layout is told by the lazy layout of what is behind it.** -/
theorem Layout.Reaches.exists_after {text : String} {l : Layout} {rest : List Char}
    (h : Reaches text l rest) :
    ∃ a, text.toList = a ++ rest ∧ l = (LazyLayout.after a).layout ∧
      (LazyLayout.after a).IsSettled rest := by
  induction h with
  | start => exact ⟨[], rfl, rfl, nofun⟩
  | @step l c rest _ ih =>
    obtain ⟨a, htext, rfl, hsettled⟩ := ih
    obtain ⟨taken, htaken, hlayout, hsettled⟩ := hsettled.comesTo_step
    have hafter : LazyLayout.after (a ++ taken) = taken.foldl LazyLayout.step (.after a) :=
      List.foldl_append
    exact ⟨a ++ taken, by rw [htext, htaken, List.append_assoc], by rw [hlayout, hafter],
      hafter ▸ hsettled⟩

end LedgerGateway.Json
