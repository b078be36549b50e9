/-!
# Laying out JSON

`Layout.ofJson` writes a JSON text anew, one item or member to a line and two spaces to a level. It
goes by the characters alone. Outside texts it drops white space, breaks the line after an opening
bracket and a comma and before a closing bracket, and sets a space after a colon; whatever stands
in a text, and every number and word, is copied as it is spelled. An empty array or object stays on
one line: behind an opening bracket the writing looks ahead, past white space, for a closing one.

A step of the writing (`Layout.step`) takes one character, and with an opening bracket all that it
looked at. How deep the writing is, whether it is inside a text, and whether it is behind a
backslash there, is all that it remembers from one step to the next (`Layout`).
-/

namespace LedgerGateway.Json

structure Layout where
  written : String
  /-- How many containers with something in them are open. -/
  depth : Nat
  inText : Bool
  /-- Behind a backslash that waits for the character it escapes. -/
  escaped : Bool
deriving DecidableEq, Repr

namespace Layout

def start : Layout := ⟨"", 0, false, false⟩

def isSpace (c : Char) : Bool :=
  c == ' ' || c == '\t' || c == '\n' || c == '\r'

def isOpening (c : Char) : Bool :=
  c == '[' || c == '\x7b'

def isClosing (c : Char) : Bool :=
  c == ']' || c == '\x7d'

def put (l : Layout) (c : Char) : Layout :=
  { l with written := l.written.push c }

/-- Begins a line at the present depth. -/
def newLine (l : Layout) : Layout :=
  { l with written := l.depth.repeat (· ++ "  ") (l.written.push '\n') }

/-- Begins the first line of a container that has something in it. -/
def indent (l : Layout) : Layout :=
  newLine { l with depth := l.depth + 1 }

/-- Begins the last line of a container that has something in it. -/
def outdent (l : Layout) : Layout :=
  newLine { l with depth := l.depth - 1 }

def copy (l : Layout) (c : Char) : Layout :=
  if l.escaped then { l.put c with escaped := false }
  else if c == '\\' then { l.put c with escaped := true }
  else if c == '"' then { l.put c with inText := false }
  else l.put c

/-- Looks behind an opening bracket for a closing one, which is then written at once. What is left
is given, too. -/
def lookAhead (l : Layout) (rest : List Char) : Layout × List Char :=
  match rest.dropWhile isSpace with
  | [] => (l.indent, [])
  | c :: behind => if isClosing c then (l.put c, behind) else (l.indent, c :: behind)

/-- Lays out a character. What is left behind it, and behind all that was taken along with it, is
given, too. -/
def step (l : Layout) (c : Char) (rest : List Char) : Layout × List Char :=
  if l.inText then (l.copy c, rest)
  else if isSpace c then (l, rest)
  else if c == '"' then ({ l.put c with inText := true }, rest)
  else if isOpening c then (l.put c).lookAhead rest
  else if isClosing c then (l.outdent.put c, rest)
  else if c == ',' then ((l.put c).newLine, rest)
  else if c == ':' then ((l.put c).put ' ', rest)
  else (l.put c, rest)

theorem length_lookAhead_le (l : Layout) (rest : List Char) :
    (l.lookAhead rest).2.length ≤ rest.length := by
  have hle : (rest.dropWhile isSpace).length ≤ rest.length := (List.dropWhile_sublist _).length_le
  unfold lookAhead
  split
  · exact Nat.zero_le _
  · rename_i heq
    rw [heq, List.length_cons] at hle
    split
    · exact Nat.le_of_succ_le hle
    · exact hle

theorem step_of_isOpening {l : Layout} {c : Char} {rest : List Char} (hl : l.inText = false)
    (hc : isOpening c = true) : l.step c rest = (l.put c).lookAhead rest := by
  have hchar : c = '[' ∨ c = '\x7b' := by simpa [isOpening] using hc
  rcases hchar with rfl | rfl <;> rw [step, if_neg (by simp [hl])] <;> rfl

/-- Other characters are taken alone. -/
theorem step_of_not_isOpening {l : Layout} {c : Char} {rest : List Char}
    (h : ¬ (l.inText = false ∧ isOpening c = true)) :
    l.step c rest = ((l.step c []).1, rest) := by
  by_cases htext : l.inText = true
  · simp only [step, if_pos htext]
  · have hopening : ¬ isOpening c = true := fun hc => h ⟨Bool.eq_false_iff.mpr htext, hc⟩
    simp only [step, if_neg htext, if_neg hopening]
    repeat' split
    all_goals rfl

theorem length_step_le (l : Layout) (c : Char) (rest : List Char) :
    (l.step c rest).2.length ≤ rest.length := by
  by_cases h : l.inText = false ∧ isOpening c = true
  · rw [step_of_isOpening h.1 h.2]
    exact length_lookAhead_le _ _
  · exact Nat.le_of_eq (congrArg (·.2.length) (step_of_not_isOpening h))

/-- Lays out what is left, step by step. -/
def run (l : Layout) : List Char → Layout
  | [] => l
  | c :: rest =>
    let next := l.step c rest
    run next.1 next.2
termination_by text => text.length
decreasing_by exact Nat.lt_succ_of_le (length_step_le l c rest)

/-- A JSON text with one item or member to a line. -/
def ofJson (text : String) : String :=
  (run start text.toList).written

end Layout

end LedgerGateway.Json
