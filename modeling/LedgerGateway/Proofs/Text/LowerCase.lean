import LedgerGateway.Proofs.Text.Lossy
import LedgerGateway.Text.LowerCase
import Mathlib.Data.List.Chain
import Mathlib.Data.List.Forall2

/-!
# Lower-case forms

What a character becomes hangs on the character, and for the capital sigma on whether it ends a word
(`EndsWord`).  `LowersTo` lists the cases, `IsLowered` goes through a text with them, and
`lowerCase` gives the one text that this leads to (`isLowerCase_iff`).  That there is only one rests
on the table: its runs lie apart from each other (`pairwise_lowerRuns`).

Of the characters outside ASCII the Kelvin sign alone has a lower-case form within ASCII
(`exists_mem_lowerBetween`).  So a text of small letters other than `k` is the lower-case form of
its variants in ASCII and of no other text (`lowerCase_eq_iff`).
-/

namespace LedgerGateway.Text

/-! ### The table -/

/-- The run is one of characters outside ASCII.  Their lower-case forms are characters, and if one
of these is in ASCII it is the only one and a `k`. -/
def CaseRun.IsSound (r : CaseRun) : Prop :=
  128 ≤ r.first ∧
  (r.image + (r.last - r.first) < 0xD800 ∨
    0xDFFF < r.image ∧ r.image + (r.last - r.first) < 0x110000) ∧
  (128 ≤ r.image ∨ r.last = r.first ∧ r.image = 'k'.toNat)

instance : DecidablePred CaseRun.IsSound := fun _ => inferInstanceAs (Decidable (_ ∧ _))

theorem isSound_of_mem_lowerRuns : ∀ r ∈ lowerRuns, r.IsSound := by decide +kernel

/-- The run is not empty, and the other one comes after it. -/
def CaseRun.Precedes (r r' : CaseRun) : Prop := r.first ≤ r.last ∧ r.last < r'.first

instance : DecidableRel CaseRun.Precedes := fun _ _ => inferInstanceAs (Decidable (_ ∧ _))

instance : IsTrans CaseRun CaseRun.Precedes where
  trans _ _ _ h h' := ⟨h.1, Nat.lt_trans h.2 (Nat.lt_of_le_of_lt h'.1 h'.2)⟩

theorem pairwise_lowerRuns : lowerRuns.Pairwise CaseRun.Precedes := by
  rw [← List.isChain_iff_pairwise]
  decide +kernel

namespace CaseRun

variable {r : CaseRun} {n m : Nat}

theorem lower?_eq_some_iff : r.lower? n = some m ↔
    (r.first ≤ n ∧ n ≤ r.last ∧ (n - r.first) % r.step = 0) ∧ m = r.image + (n - r.first) := by
  rw [lower?]
  split
  · rename_i h
    simp [h, eq_comm]
  · rename_i h
    simp [h]

theorem IsSound.isValidChar (h : r.IsSound) (hm : r.lower? n = some m) : m.isValidChar := by
  obtain ⟨⟨hfirst, hlast, _⟩, rfl⟩ := lower?_eq_some_iff.1 hm
  rcases h.2.1 with hlow | ⟨hhigh, hmax⟩
  · exact .inl (by omega)
  · exact .inr ⟨by omega, by omega⟩

theorem IsSound.le_or_eq (h : r.IsSound) (hm : r.lower? n = some m) : 128 ≤ m ∨ m = 'k'.toNat := by
  obtain ⟨⟨hfirst, hlast, _⟩, rfl⟩ := lower?_eq_some_iff.1 hm
  rcases h.2.2 with hhigh | ⟨hone, himage⟩
  · exact .inl (by omega)
  · exact .inr (by omega)

/-- Runs that lie apart share no character. -/
theorem findSome?_of_pairwise : ∀ {runs : List CaseRun}, runs.Pairwise Precedes →
    r ∈ runs → r.lower? n = some m → runs.findSome? (·.lower? n) = some m := by
  intro runs hruns hr hm
  induction hruns with
  | nil => cases hr
  | @cons head runs hhead _ ih =>
    rw [List.findSome?_cons]
    rcases List.mem_cons.1 hr with rfl | hr
    · rw [hm]
    · have hnone : head.lower? n = none := by
        obtain ⟨⟨hfirst, -, -⟩, -⟩ := lower?_eq_some_iff.1 hm
        have hapart := (hhead r hr).2
        rw [lower?, if_neg (by omega)]
      rw [hnone]
      exact ih hr

end CaseRun

theorem findSome?_lowerRuns_eq_some_iff {n m : Nat} :
    lowerRuns.findSome? (·.lower? n) = some m ↔ ∃ r ∈ lowerRuns, r.lower? n = some m := by
  constructor
  · exact List.exists_of_findSome?_eq_some
  · rintro ⟨r, hr, hm⟩
    exact CaseRun.findSome?_of_pairwise pairwise_lowerRuns hr hm

/-! ### Words -/

/-- The first character that is not passed over is there and has case. -/
def MeetsCased (cs : List Char) : Prop :=
  ∃ ignored c rest, cs = ignored ++ c :: rest ∧ (∀ x ∈ ignored, isCaseIgnorable x) ∧
    ¬ isCaseIgnorable c ∧ isCased c

theorem startsCased_iff : ∀ {cs : List Char}, startsCased cs ↔ MeetsCased cs := by
  intro cs
  induction cs with
  | nil => simp [startsCased, MeetsCased]
  | cons x cs ih =>
    by_cases hx : isCaseIgnorable x
    · have hskip : startsCased (x :: cs) = startsCased cs := by
        simp [startsCased, hx]
      rw [hskip, ih]
      constructor
      · rintro ⟨ignored, c, rest, rfl, hignored, hc⟩
        exact ⟨x :: ignored, c, rest, rfl, List.forall_mem_cons.2 ⟨hx, hignored⟩, hc⟩
      · rintro ⟨ignored, c, rest, heq, hignored, hc⟩
        cases ignored with
        | nil =>
          obtain ⟨rfl, -⟩ := List.cons.inj heq
          exact absurd hx hc.1
        | cons y ignored =>
          obtain ⟨-, rfl⟩ := List.cons.inj heq
          exact ⟨ignored, c, rest, rfl, (List.forall_mem_cons.1 hignored).2, hc⟩
    · have hstop : startsCased (x :: cs) = isCased x := by
        simp [startsCased, hx]
      rw [hstop]
      constructor
      · exact fun hcased => ⟨[], x, cs, rfl, by simp, hx, hcased⟩
      · rintro ⟨ignored, c, rest, heq, hignored, hc⟩
        cases ignored with
        | nil =>
          obtain ⟨rfl, -⟩ := List.cons.inj heq
          exact hc.2
        | cons y ignored =>
          obtain ⟨rfl, -⟩ := List.cons.inj heq
          exact absurd (hignored x List.mem_cons_self) hx

/-- A character between these ends a word: looking back one meets a character with case first, and
looking ahead one does not. -/
def EndsWord (before after : List Char) : Prop :=
  MeetsCased before.reverse ∧ ¬ MeetsCased after

/-! ### Lower-case forms -/

def IsCapital (c : Char) : Prop := 'A'.toNat ≤ c.toNat ∧ c.toNat ≤ 'Z'.toNat

instance : DecidablePred IsCapital := fun _ => inferInstanceAs (Decidable (_ ∧ _))

/-- What a character becomes between others. -/
inductive LowersTo (before after : List Char) : Char → List Char → Prop
  | finalSigma : EndsWord before after → LowersTo before after 'Σ' ['ς']
  | sigma : ¬ EndsWord before after → LowersTo before after 'Σ' ['σ']
  | dottedI : LowersTo before after 'İ' ['i', '\u0307']
  | capital {c d : Char} : IsCapital c → d.toNat = c.toNat + 32 → LowersTo before after c [d]
  | listed {r : CaseRun} {c d : Char} : c ≠ 'Σ' → r ∈ lowerRuns →
      r.lower? c.toNat = some d.toNat → LowersTo before after c [d]
  | unchanged {c : Char} : ¬ IsCapital c → c ≠ 'İ' → (∀ r ∈ lowerRuns, r.lower? c.toNat = none) →
      LowersTo before after c [c]

/-- What the characters of a text become, behind others. -/
inductive IsLowered : (before : List Char) → List Char → List Char → Prop
  | nil {before : List Char} : IsLowered before [] []
  | cons {before rest image lowered : List Char} {c : Char} : LowersTo before rest c image →
      IsLowered (before ++ [c]) rest lowered → IsLowered before (c :: rest) (image ++ lowered)

/-- A text is the lower-case form of another. -/
def IsLowerCase (s lower : String) : Prop := IsLowered [] s.toList lower.toList

/-- What a character becomes between others, those before it in reverse. -/
def lowerBetween (before : List Char) (c : Char) (after : List Char) : List Char :=
  if c = 'Σ' then
    if startsCased before && !startsCased after then ['ς'] else ['σ']
  else lowerChar c

/-- What the characters of a text become, those before it in reverse. -/
def lowerAfter (before : List Char) : List Char → List Char
  | [] => []
  | c :: rest => lowerBetween before c rest ++ lowerAfter (c :: before) rest

theorem lowerOnto_eq : ∀ (cs written before : List Char),
    lowerOnto written before cs = (lowerAfter before cs).reverse ++ written := by
  intro cs
  induction cs with
  | nil => intro written before; rfl
  | cons c rest ih =>
    intro written before
    rw [lowerOnto, ih, lowerAfter, List.reverse_append, List.append_assoc]
    rfl

theorem toList_lowerCase (s : String) : (lowerCase s).toList = lowerAfter [] s.toList := by
  rw [lowerCase, lowerOnto_eq, List.append_nil, List.reverse_reverse, String.toList_ofList]

theorem toLower_of_isCapital {c : Char} (h : IsCapital c) : c.toLower.toNat = c.toNat + 32 := by
  have hc : c.val ≥ 'A'.val ∧ c.val ≤ 'Z'.val := h
  have hlow : c.val.toNat ≤ 'Z'.toNat := h.2
  have hlower : c.toLower.val = c.val + ('a'.val - 'A'.val) := congrArg Char.val (dif_pos hc)
  show c.toLower.val.toNat = c.val.toNat + 32
  rw [hlower, UInt32.toNat_add]
  exact Nat.mod_eq_of_lt (by simp at hlow ⊢; omega)

theorem toLower_of_not_isCapital {c : Char} (h : ¬ IsCapital c) : c.toLower = c := by
  have hc : ¬ (c.val ≥ 'A'.val ∧ c.val ≤ 'Z'.val) := h
  exact dif_neg hc

theorem lowerChar_of_lt {c : Char} (h : c.toNat < 128) : lowerChar c = [c.toLower] := by
  rw [lowerChar, if_pos h]

theorem lower?_eq_none_of_lt {c : Char} (h : c.toNat < 128) :
    ∀ r ∈ lowerRuns, r.lower? c.toNat = none := by
  intro r hr
  have hfirst := (isSound_of_mem_lowerRuns r hr).1
  rw [CaseRun.lower?, if_neg (by omega)]

theorem lowerChar_dottedI : lowerChar 'İ' = ['i', '\u0307'] := by decide +kernel

theorem lowerChar_of_lower? {r : CaseRun} {c d : Char} (hr : r ∈ lowerRuns)
    (hd : r.lower? c.toNat = some d.toNat) : lowerChar c = [d] := by
  have hascii : ¬ c.toNat < 128 := by
    intro hc
    rw [lower?_eq_none_of_lt hc r hr] at hd
    cases hd
  have hfound := findSome?_lowerRuns_eq_some_iff.2 ⟨r, hr, hd⟩
  have hdotted : c ≠ 'İ' := by
    rintro rfl
    have hnone : lowerRuns.findSome? (·.lower? 'İ'.toNat) = none := by decide +kernel
    rw [hnone] at hfound
    cases hfound
  rw [lowerChar, if_neg hascii, if_neg hdotted, hfound]
  exact congrArg (fun c => [c]) (Char.ofNat_toNat d)

theorem lowerChar_of_forall_none {c : Char} (hascii : ¬ c.toNat < 128) (hdotted : c ≠ 'İ')
    (h : ∀ r ∈ lowerRuns, r.lower? c.toNat = none) : lowerChar c = [c] := by
  rw [lowerChar, if_neg hascii, if_neg hdotted, List.findSome?_eq_none_iff.2 h]

/-- A character outside ASCII has a lower-case form in the table, or stays what it is. -/
theorem exists_lower?_or_forall_none (c : Char) :
    (∃ r ∈ lowerRuns, ∃ d : Char, r.lower? c.toNat = some d.toNat) ∨
      ∀ r ∈ lowerRuns, r.lower? c.toNat = none := by
  by_cases h : ∃ r ∈ lowerRuns, r.lower? c.toNat ≠ none
  · obtain ⟨r, hr, hsome⟩ := h
    obtain ⟨m, hm⟩ := Option.ne_none_iff_exists'.1 hsome
    have hvalid := (isSound_of_mem_lowerRuns r hr).isValidChar hm
    exact .inl ⟨r, hr, Char.ofNat m, by rw [toNat_ofNat hvalid, hm]⟩
  · push Not at h
    exact .inr h

section Between

variable {before after cs lowered : List Char} {c : Char} {image : List Char}

theorem startsCased_and_iff :
    (startsCased before.reverse && !startsCased after) = true ↔ EndsWord before after := by
  rw [EndsWord, ← startsCased_iff, ← startsCased_iff]
  simp

theorem lowerBetween_of_ne (hc : c ≠ 'Σ') : lowerBetween before c after = lowerChar c := by
  rw [lowerBetween, if_neg hc]

theorem LowersTo.eq (h : LowersTo before after c image) :
    image = lowerBetween before.reverse c after := by
  cases h with
  | finalSigma hends => rw [lowerBetween, if_pos rfl, if_pos (startsCased_and_iff.2 hends)]
  | sigma hends =>
    rw [lowerBetween, if_pos rfl, if_neg fun hstarts => hends (startsCased_and_iff.1 hstarts)]
  | dottedI => rw [lowerBetween_of_ne (by decide), lowerChar_dottedI]
  | @capital c d hcapital hd =>
    have hlow : c.toNat ≤ 'Z'.toNat := hcapital.2
    have hascii : c.toNat < 128 := lt_of_le_of_lt hlow (by decide)
    have hsigma : c ≠ 'Σ' := by rintro rfl; exact absurd hascii (by decide)
    rw [lowerBetween_of_ne hsigma, lowerChar_of_lt hascii, List.singleton_inj, ← Char.toNat_inj,
      toLower_of_isCapital hcapital, hd]
  | listed hsigma hr hd => rw [lowerBetween_of_ne hsigma, lowerChar_of_lower? hr hd]
  | unchanged hcapital hdotted hnone =>
    have hsigma : c ≠ 'Σ' := by
      rintro rfl
      have hlisted : ¬ ∀ r ∈ lowerRuns, r.lower? 'Σ'.toNat = none := by decide +kernel
      exact hlisted hnone
    rw [lowerBetween_of_ne hsigma]
    by_cases hascii : c.toNat < 128
    · rw [lowerChar_of_lt hascii, toLower_of_not_isCapital hcapital]
    · rw [lowerChar_of_forall_none hascii hdotted hnone]

theorem lowersTo_lowerBetween (before after : List Char) (c : Char) :
    LowersTo before after c (lowerBetween before.reverse c after) := by
  by_cases hsigma : c = 'Σ'
  · subst hsigma
    by_cases hends : EndsWord before after
    · rw [← (LowersTo.finalSigma hends).eq]
      exact .finalSigma hends
    · rw [← (LowersTo.sigma hends).eq]
      exact .sigma hends
  by_cases hdotted : c = 'İ'
  · subst hdotted
    have h : LowersTo before after 'İ' ['i', '\u0307'] := .dottedI
    rwa [← h.eq]
  by_cases hcapital : IsCapital c
  · have h : LowersTo before after c [c.toLower] :=
      .capital hcapital (toLower_of_isCapital hcapital)
    rwa [← h.eq]
  rcases exists_lower?_or_forall_none c with ⟨r, hr, d, hd⟩ | hnone
  · have h : LowersTo before after c [d] := .listed hsigma hr hd
    rwa [← h.eq]
  · have h : LowersTo before after c [c] := .unchanged hcapital hdotted hnone
    rwa [← h.eq]

theorem isLowered_iff : ∀ {cs before lowered : List Char},
    IsLowered before cs lowered ↔ lowered = lowerAfter before.reverse cs := by
  intro cs
  induction cs with
  | nil =>
    intro before lowered
    constructor
    · intro h
      cases h
      rfl
    · rintro rfl
      exact .nil
  | cons c rest ih =>
    intro before lowered
    have hbefore : c :: before.reverse = (before ++ [c]).reverse := by simp
    rw [lowerAfter, hbefore]
    constructor
    · intro h
      cases h with
      | cons himage hrest => rw [himage.eq, ih.1 hrest]
    · rintro rfl
      exact .cons (lowersTo_lowerBetween before rest c) (ih.2 rfl)

/-- **A text has one lower-case form.** -/
theorem isLowerCase_iff {s lower : String} : IsLowerCase s lower ↔ lowerCase s = lower := by
  rw [IsLowerCase, isLowered_iff, ← String.toList_inj, toList_lowerCase, eq_comm]
  rfl

/-! ### Lower-case forms within ASCII -/

/-- **Nothing in ASCII but a `k` is reached from outside**, and that from the Kelvin sign.  Anything
else out there becomes something that is not all in ASCII. -/
theorem exists_mem_lowerBetween (hc : 128 ≤ c.toNat) (before after : List Char) :
    (∃ d ∈ lowerBetween before c after, 128 ≤ d.toNat) ∨ lowerBetween before c after = ['k'] := by
  have hlowers := lowersTo_lowerBetween before.reverse after c
  rw [List.reverse_reverse] at hlowers
  generalize lowerBetween before c after = image at hlowers
  cases hlowers with
  | finalSigma | sigma => exact .inl ⟨_, List.mem_singleton_self _, by decide⟩
  | dottedI => exact .inl ⟨'\u0307', by decide, by decide⟩
  | capital hcapital _ =>
    have hlow : c.toNat ≤ 'Z'.toNat := hcapital.2
    have hz : 'Z'.toNat < 128 := by decide
    omega
  | @listed r c d _ hr hd =>
    rcases (isSound_of_mem_lowerRuns r hr).le_or_eq hd with hhigh | hk
    · exact .inl ⟨d, List.mem_singleton_self d, hhigh⟩
    · exact .inr (by rw [Char.toNat_inj.1 hk])
  | unchanged => exact .inl ⟨c, List.mem_singleton_self c, hc⟩

/-- Two characters are the same up to the case of ASCII letters. -/
def SameUpToCase (c d : Char) : Prop :=
  c = d ∨ IsCapital c ∧ d.toNat = c.toNat + 32 ∨ IsCapital d ∧ c.toNat = d.toNat + 32

instance (c d : Char) : Decidable (SameUpToCase c d) := inferInstanceAs (Decidable (_ ∨ _))

/-- Two texts are the same up to the case of ASCII letters. -/
def EqualUpToCase (s t : String) : Prop := List.Forall₂ SameUpToCase s.toList t.toList

/-- Small letters of ASCII other than `k`, and all other signs of ASCII, have no lower-case forms
but themselves, and are those of nothing outside ASCII. -/
def IsPlain (d : Char) : Prop := d.toNat < 128 ∧ ¬ IsCapital d ∧ d ≠ 'k'

instance : DecidablePred IsPlain := fun _ => inferInstanceAs (Decidable (_ ∧ _))

theorem sameUpToCase_iff {d : Char} (hd : ¬ IsCapital d) : SameUpToCase c d ↔ c.toLower = d := by
  rw [SameUpToCase]
  by_cases hc : IsCapital c
  · rw [← Char.toNat_inj (c := c.toLower), toLower_of_isCapital hc]
    constructor
    · rintro (rfl | ⟨-, h⟩ | ⟨h, -⟩)
      · exact absurd hc hd
      · exact h.symm
      · exact absurd h hd
    · exact fun h => .inr (.inl ⟨hc, h.symm⟩)
  · rw [toLower_of_not_isCapital hc]
    constructor
    · rintro (h | ⟨h, -⟩ | ⟨h, -⟩)
      · exact h
      · exact absurd h hc
      · exact absurd h hd
    · exact .inl

theorem SameUpToCase.lt {d : Char} (h : SameUpToCase c d) (hd : IsPlain d) : c.toNat < 128 := by
  obtain ⟨hascii, hcapital, -⟩ := hd
  rcases h with rfl | ⟨⟨-, hlow⟩, -⟩ | ⟨h, -⟩
  · exact hascii
  · exact lt_of_le_of_lt hlow (by decide)
  · exact absurd h hcapital

theorem lowerAfter_eq_iff : ∀ {cs before t : List Char}, (∀ d ∈ t, IsPlain d) →
    (lowerAfter before cs = t ↔ List.Forall₂ SameUpToCase cs t) := by
  intro cs
  induction cs with
  | nil =>
    intro before t _
    rw [lowerAfter, List.forall₂_nil_left_iff, eq_comm]
  | cons c rest ih =>
    intro before t ht
    by_cases hc : c.toNat < 128
    · have hsigma : c ≠ 'Σ' := by rintro rfl; exact absurd hc (by decide)
      rw [lowerAfter, lowerBetween_of_ne hsigma, lowerChar_of_lt hc, List.singleton_append]
      cases t with
      | nil => simp
      | cons d t =>
        obtain ⟨hd, ht⟩ := List.forall_mem_cons.1 ht
        rw [List.cons.injEq, List.forall₂_cons, sameUpToCase_iff hd.2.1, ih ht]
    · -- Neither side can hold: what is in `t` is in ASCII, and is no `k`.
      constructor
      · rintro rfl
        rw [lowerAfter] at ht
        have hplain : ∀ d ∈ lowerBetween before c rest, IsPlain d :=
          fun d hd => ht d (List.mem_append_left _ hd)
        rcases exists_mem_lowerBetween (not_lt.1 hc) before rest with ⟨d, hd, hhigh⟩ | hk
        · exact absurd (hplain d hd).1 (not_lt.2 hhigh)
        · rw [hk] at hplain
          exact absurd rfl (hplain 'k' (List.mem_singleton_self _)).2.2
      · intro h
        cases h with
        | cons hsame _ => exact absurd (hsame.lt (ht _ List.mem_cons_self)) hc

/-- **Lower-casing reaches a plain text from its variants in ASCII, and from nothing else.** -/
theorem lowerCase_eq_iff {s t : String} (ht : ∀ d ∈ t.toList, IsPlain d) :
    lowerCase s = t ↔ EqualUpToCase s t := by
  rw [← String.toList_inj, toList_lowerCase, lowerAfter_eq_iff ht, EqualUpToCase]

theorem EqualUpToCase.lt {s t : String} (h : EqualUpToCase s t) (ht : ∀ d ∈ t.toList, IsPlain d) :
    ∀ c ∈ s.toList, c.toNat < 128 := by
  rw [EqualUpToCase] at h
  generalize s.toList = cs, t.toList = ds at h ht
  induction h with
  | nil => simp
  | cons hsame _ ih =>
    obtain ⟨hd, ht⟩ := List.forall_mem_cons.1 ht
    exact List.forall_mem_cons.2 ⟨hsame.lt hd, ih ht⟩

end Between

end LedgerGateway.Text
