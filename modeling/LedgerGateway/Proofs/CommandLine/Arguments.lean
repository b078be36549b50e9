import LedgerGateway.CommandLine

/-!
# Which arguments are passed through

Where the action and the function do not begin with a dash, only the first argument decides how the
others are taken (`Taken`).  It is passed through with all that follow unless it is the two dashes
that end the options, which are dropped, or asks for help (`Asks`), which ends everything
(`parse_arguments`).  What stands behind it is never looked at.
-/

namespace LedgerGateway.CommandLine

def BeginsWithDash (word : String) : Prop := word.toList.head? = some '-'

instance (word : String) : Decidable (BeginsWithDash word) :=
  inferInstanceAs (Decidable (_ = _))

/-- A first argument asks for help, and this is what comes of it. -/
inductive Asks : String → UsageFault → Prop
  | help : Asks "--help" .displayHelp
  | letters (n : Nat) : Asks (String.ofList ('-' :: List.replicate (n + 1) 'h')) .displayHelp
  | value (text : String) : Asks ("--help=" ++ text) .tooManyValues

/-- What is taken of the words behind the function: these arguments, or nothing. -/
inductive Taken : List String → Except UsageFault (List String) → Prop
  | nothing : Taken [] (.ok [])
  | marked {rest : List String} : Taken ("--" :: rest) (.ok rest)
  | asked {word : String} {rest : List String} {fault : UsageFault} : Asks word fault →
      Taken (word :: rest) (.error fault)
  | verbatim {word : String} {rest : List String} : word ≠ "--" → (∀ fault, ¬ Asks word fault) →
      Taken (word :: rest) (.ok (word :: rest))

/-- All words behind the function are passed through. -/
def IsPassed (arguments : List String) : Prop :=
  ∀ word ∈ arguments.head?, word ≠ "--" ∧ ∀ fault, ¬ Asks word fault

section

variable {action function word : String} {arguments : List String} {fault : UsageFault}
  {outcome : Except UsageFault (List String)}

/-! ### Options -/

theorem option_of_not_beginsWithDash (slot : Slot) (h : ¬ BeginsWithDash word) :
    option slot word = none := by
  rw [BeginsWithDash] at h
  rw [option]
  split
  · rename_i hword
    exact absurd (by rw [hword]; rfl) h
  · rename_i hword
    exact absurd (by rw [hword]; rfl) h
  · rfl

theorem ne_marker_of_not_beginsWithDash (h : ¬ BeginsWithDash word) : word ≠ "--" := by
  rintro rfl
  exact h rfl

/-- The name of an option ends at the first sign of equality, or at the end of the word. -/
theorem eq_help_or_exists_value {rest : List Char}
    (h : rest.takeWhile (· != '=') = "help".toList) :
    rest = "help".toList ∨ ∃ text, rest = "help".toList ++ '=' :: text := by
  have happend := List.takeWhile_append_dropWhile (p := (· != '=')) (l := rest)
  rw [h] at happend
  cases hdrop : rest.dropWhile (· != '=') with
  | nil =>
    rw [hdrop, List.append_nil] at happend
    exact .inl happend.symm
  | cons x text =>
    have hx := List.head?_dropWhile_not (· != '=') rest
    rw [hdrop] at hx
    have hequal : x = '=' := by simpa using hx
    rw [hdrop, hequal] at happend
    exact .inr ⟨text, happend.symm⟩

theorem longOption_eq_some {rest : List Char} (hword : word.toList = '-' :: '-' :: rest)
    (h : longOption (.argument action function) rest = some fault) : Asks word fault := by
  rw [longOption] at h
  by_cases hhelp : rest.takeWhile (· != '=') = "help".toList
  · rw [if_pos hhelp] at h
    rcases eq_help_or_exists_value hhelp with rfl | ⟨text, rfl⟩
    · obtain rfl : word = "--help" := String.toList_inj.mp hword
      cases h
      exact .help
    · obtain rfl : word = "--help=" ++ String.ofList text := by
        apply String.toList_inj.mp
        rw [hword, String.toList_append, String.toList_ofList]
        simp
      rw [if_pos (by simp)] at h
      cases h
      exact .value _
  · rw [if_neg hhelp] at h
    cases h

theorem shortOptions_eq_some {letters : List Char} (hword : word.toList = '-' :: letters)
    (h : shortOptions (.argument action function) letters = some fault) : Asks word fault := by
  unfold shortOptions at h
  by_cases hletters : letters.any (· != 'h')
  · rw [if_pos (by rw [hletters]; rfl)] at h
    cases h
  · rw [if_neg (by simpa [Slot.takesArgument] using hletters)] at h
    have hall : ∀ x ∈ letters, x = 'h' := by simpa using hletters
    cases letters with
    | nil => cases h
    | cons x rest =>
      obtain rfl := hall x List.mem_cons_self
      obtain rfl : word = String.ofList ('-' :: List.replicate (rest.length + 1) 'h') := by
        apply String.toList_inj.mp
        rw [hword, String.toList_ofList, List.replicate_succ,
          ← List.eq_replicate_of_mem fun x hx => hall x (List.mem_cons_of_mem _ hx)]
      cases h
      exact .letters _

theorem option_of_asks (h : Asks word fault) :
    option (.argument action function) word = some fault := by
  cases h with
  | help => rfl
  | letters n =>
    rw [option, String.toList_ofList, List.replicate_succ]
    simp [shortOptions]
  | value text =>
    have hword : ("--help=" ++ text).toList = '-' :: '-' :: ("help=".toList ++ text.toList) := by
      rw [String.toList_append]
      rfl
    rw [option, hword]
    simp [longOption]

theorem option_eq_some_iff :
    option (.argument action function) word = some fault ↔ Asks word fault := by
  refine ⟨fun h => ?_, option_of_asks⟩
  rw [option] at h
  split at h
  · exact longOption_eq_some ‹_› h
  · exact shortOptions_eq_some ‹_› h
  · cases h

/-! ### Words -/

theorem Asks.ne_marker (h : Asks word fault) : word ≠ "--" := by
  rintro rfl
  have hoption : option (.argument "" "") "--" = some fault := option_of_asks h
  cases hoption

/-- The action and the function are taken as they are. -/
theorem parse_two_words (haction : ¬ BeginsWithDash action) (hfunction : ¬ BeginsWithDash function) :
    parse (action :: function :: arguments) =
      parseFrom false (.argument action function) arguments := by
  have hmarker : (action == "--") = false := beq_false_of_ne (ne_marker_of_not_beginsWithDash haction)
  have hmarker' : (function == "--") = false :=
    beq_false_of_ne (ne_marker_of_not_beginsWithDash hfunction)
  simp [parse, parseFrom, hmarker, hmarker', option_of_not_beginsWithDash _ haction,
    option_of_not_beginsWithDash _ hfunction]

/-- Once no word is an option any more, all are arguments. -/
theorem parseFrom_literal :
    parseFrom true (.argument action function) arguments = .ok ⟨action, function, arguments⟩ := by
  cases arguments <;> rfl

theorem parseFrom_of_taken (h : Taken arguments outcome) :
    parseFrom false (.argument action function) arguments =
      outcome.map (CommandLine.mk action function) := by
  cases h with
  | nothing => rfl
  | marked => exact parseFrom_literal
  | asked hasks =>
    have hmarker := beq_false_of_ne hasks.ne_marker
    simp [parseFrom, hmarker, option_of_asks hasks, Except.map]
  | @verbatim word rest hmarker hasks =>
    have hoption : option (.argument action function) word = none := by
      rw [Option.eq_none_iff_forall_ne_some]
      exact fun fault h => hasks fault (option_eq_some_iff.mp h)
    simp [parseFrom, hmarker, hoption, Except.map]

theorem exists_taken (arguments : List String) : ∃ outcome, Taken arguments outcome := by
  cases arguments with
  | nil => exact ⟨_, .nothing⟩
  | cons word rest =>
    by_cases hmarker : word = "--"
    · subst hmarker
      exact ⟨_, .marked⟩
    by_cases hasks : ∃ fault, Asks word fault
    · obtain ⟨fault, hfault⟩ := hasks
      exact ⟨_, .asked hfault⟩
    · exact ⟨_, .verbatim hmarker (not_exists.mp hasks)⟩

theorem map_mk_injective {outcome' : Except UsageFault (List String)}
    (h : outcome.map (CommandLine.mk action function) =
      outcome'.map (CommandLine.mk action function)) : outcome = outcome' := by
  cases outcome <;> cases outcome' <;> simp_all [Except.map]

theorem taken_ok_iff : Taken arguments (.ok arguments) ↔ IsPassed arguments := by
  constructor
  · intro h word hword
    cases h with
    | nothing => cases hword
    | verbatim hmarker hasks =>
      obtain rfl := Option.some.inj hword
      exact ⟨hmarker, hasks⟩
  · intro h
    cases arguments with
    | nil => exact .nothing
    | cons word rest => exact .verbatim (h word rfl).1 (h word rfl).2

/-- **What comes of the words behind the function.**  If neither the action nor the function begins
with a dash, the arguments are taken as `Taken` says.  They are passed through exactly if the first
one neither ends the options nor asks for help. -/
theorem parse_arguments (haction : ¬ BeginsWithDash action) (hfunction : ¬ BeginsWithDash function)
    (arguments : List String) :
    (∀ outcome, parse (action :: function :: arguments) =
        outcome.map (CommandLine.mk action function) ↔ Taken arguments outcome) ∧
    (parse (action :: function :: arguments) = .ok ⟨action, function, arguments⟩ ↔
      IsPassed arguments) := by
  have htaken : ∀ outcome, parse (action :: function :: arguments) =
      outcome.map (CommandLine.mk action function) ↔ Taken arguments outcome := by
    intro outcome
    rw [parse_two_words haction hfunction]
    constructor
    · intro h
      obtain ⟨outcome', houtcome'⟩ := exists_taken arguments
      rw [parseFrom_of_taken houtcome'] at h
      rwa [← map_mk_injective h]
    · exact parseFrom_of_taken
  exact ⟨htaken, (htaken (.ok arguments)).trans taken_ok_iff⟩

end

/-- Arguments that begin with dashes are passed through behind one that asks for nothing. -/
theorem parse_arguments_sample :
    parse ["submit", "Pay", "-5", "--", "--help"] = .ok ⟨"submit", "Pay", ["-5", "--", "--help"]⟩ := by
  have hpassed : IsPassed ["-5", "--", "--help"] := by
    intro word hword
    obtain rfl := Option.some.inj hword
    refine ⟨by decide, fun fault hasks => ?_⟩
    have hoption : option (.argument "" "") "-5" = some fault := option_of_asks hasks
    cases hoption
  exact (parse_arguments (by decide) (by decide) _).2.mpr hpassed

/-- Not all arguments are passed through: asking for help ends everything, and two dashes are
dropped. -/
theorem exists_not_passed :
    ¬ (BeginsWithDash "submit" ∨ BeginsWithDash "Pay") ∧
    parse ["submit", "Pay", "--help"] = .error .displayHelp ∧
    parse ["submit", "Pay", "--", "x"] = .ok ⟨"submit", "Pay", ["x"]⟩ ∧
    ¬ ∀ action function arguments, ¬ BeginsWithDash action → ¬ BeginsWithDash function →
      parse (action :: function :: arguments) = .ok ⟨action, function, arguments⟩ := by
  have hhelp : parse ["submit", "Pay", "--help"] = .error .displayHelp := rfl
  refine ⟨by decide, hhelp, rfl, fun h => ?_⟩
  have hpassed := h "submit" "Pay" ["--help"] (by decide) (by decide)
  rw [hhelp] at hpassed
  cases hpassed

end LedgerGateway.CommandLine
