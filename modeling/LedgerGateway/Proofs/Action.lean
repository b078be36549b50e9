import LedgerGateway.Action
import LedgerGateway.Proofs.Text.LowerCase

/-!
# Which words stand for an action

The two words are read without regard to the case of ASCII letters, and that is all the freedom
there is (`Action.parse_upToCase`).  Reading goes by the lower-case forms of Unicode, in which two
characters outside ASCII lead to letters of ASCII: the Kelvin sign and the dotted capital I.
Neither word has a `k`, and the dotted capital I leaves its dot behind.
-/

namespace LedgerGateway.Action

open Text

variable {word : String} {action : Action} {e : Error}

theorem isPlain_of_mem_name : ∀ action : Action, ∀ d ∈ action.name.toList, IsPlain d := by
  intro action d hd
  have hall : action.name.toList.all (fun d => decide (IsPlain d)) = true := by
    cases action <;> decide
  exact of_decide_eq_true (List.all_eq_true.1 hall d hd)

theorem parse_eq_ok_iff : parse word = .ok action ↔ EqualUpToCase word action.name := by
  rw [← lowerCase_eq_iff (isPlain_of_mem_name action), parse]
  generalize lowerCase word = lower
  constructor
  · intro h
    split at h
    · rename_i hlower
      cases h
      exact hlower
    · split at h
      · rename_i hlower
        cases h
        exact hlower
      · cases h
  · rintro rfl
    cases action with
    | submit => exact if_pos rfl
    | evaluate => exact (if_neg (by decide)).trans (if_pos rfl)

theorem parse_eq_error_iff : parse word = .error e ↔
    (∀ action : Action, ¬ EqualUpToCase word action.name) ∧
      e = .invalidAction (lowerCase word) := by
  constructor
  · intro h
    constructor
    · intro action hequal
      rw [parse_eq_ok_iff.2 hequal] at h
      cases h
    · rw [parse] at h
      split at h
      · cases h
      · split at h
        · cases h
        · exact (Except.error.inj h).symm
  · rintro ⟨hnone, rfl⟩
    have hne : ∀ action : Action, lowerCase word ≠ action.name := fun action hlower =>
      hnone action ((lowerCase_eq_iff (isPlain_of_mem_name action)).1 hlower)
    rw [parse, if_neg (hne submit), if_neg (hne evaluate)]

/-- **A word is read as an action exactly if it is the word for it up to the case of ASCII
letters.**  Any other word is refused, and the error has its lower-case form.  No word with a
character outside ASCII is read. -/
theorem parse_upToCase (word : String) :
    (parse word = .ok .submit ↔ EqualUpToCase word "submit") ∧
    (parse word = .ok .evaluate ↔ EqualUpToCase word "evaluate") ∧
    (∀ e, parse word = .error e ↔
      ¬ EqualUpToCase word "submit" ∧ ¬ EqualUpToCase word "evaluate" ∧
        ∃ lower, IsLowerCase word lower ∧ e = .invalidAction lower) ∧
    ((∃ c ∈ word.toList, 128 ≤ c.toNat) → ∀ action, parse word ≠ .ok action) := by
  refine ⟨parse_eq_ok_iff, parse_eq_ok_iff, fun e => ?_, ?_⟩
  · rw [parse_eq_error_iff]
    simp only [isLowerCase_iff, exists_eq_left', ← and_assoc, and_congr_left_iff]
    intro _
    constructor
    · exact fun h => ⟨h submit, h evaluate⟩
    · rintro ⟨hsubmit, hevaluate⟩ action
      cases action with
      | submit => exact hsubmit
      | evaluate => exact hevaluate
  · rintro ⟨c, hc, hhigh⟩ action h
    have hlow := (parse_eq_ok_iff.1 h).lt (isPlain_of_mem_name action) c hc
    omega

/-- The long s is no `s`. -/
theorem parse_longS : (∃ c ∈ "\u017Fubmit".toList, 128 ≤ c.toNat) ∧
    parse "\u017Fubmit" ≠ .ok .submit ∧ parse "sUbMiT" = .ok .submit := by
  have hlong : ∃ c ∈ "\u017Fubmit".toList, 128 ≤ c.toNat := ⟨'\u017F', by decide, by decide⟩
  refine ⟨hlong, (parse_upToCase _).2.2.2 hlong .submit, (parse_upToCase _).1.2 ?_⟩
  have hlist : List.Forall₂ SameUpToCase ['s', 'U', 'b', 'M', 'i', 'T']
      ['s', 'u', 'b', 'm', 'i', 't'] := by
    simp only [List.forall₂_cons, List.Forall₂.nil, and_true]
    decide
  exact hlist

end LedgerGateway.Action
