import LedgerGateway.Bytes

/-!
# Dictionaries

A dictionary holds byte strings under names, in the order of the names. `insert` puts a byte string
under a name, in place of the one that was there. Because the order is part of the type, two
dictionaries with the same entries are equal, however they came about.
-/

namespace LedgerGateway.Wire

/-- Byte strings under names, in the order of the names. -/
structure Dictionary where
  entries : List (String × Bytes)
  sorted : entries.Pairwise fun a b => a.1 < b.1
deriving DecidableEq, Repr

namespace Dictionary

@[ext]
theorem ext : ∀ {d e : Dictionary}, d.entries = e.entries → d = e := by
  intro d e h
  cases d
  cases e
  cases h
  rfl

def empty : Dictionary := ⟨[], .nil⟩

def insertSorted (key : String) (value : Bytes) : List (String × Bytes) → List (String × Bytes)
  | [] => [(key, value)]
  | (k, v) :: rest =>
    if key < k then (key, value) :: (k, v) :: rest
    else if key = k then (key, value) :: rest
    else (k, v) :: insertSorted key value rest

theorem mem_insertSorted : ∀ {key : String} {value : Bytes} {l : List (String × Bytes)}
    {e : String × Bytes}, e ∈ insertSorted key value l → e = (key, value) ∨ e ∈ l := by
  intro key value l e
  induction l with
  | nil => intro h; exact .inl (by simpa [insertSorted] using h)
  | cons a l ih =>
    intro h
    simp only [insertSorted] at h
    split at h
    · simpa using h
    · split at h
      · rcases List.mem_cons.1 h with h | h
        · exact .inl h
        · exact .inr (List.mem_cons_of_mem _ h)
      · rcases List.mem_cons.1 h with h | h
        · exact .inr (by simp [h])
        · rcases ih h with h | h
          · exact .inl h
          · exact .inr (List.mem_cons_of_mem _ h)

theorem lt_of_not_lt_of_ne : ∀ {a b : String}, ¬ a < b → a ≠ b → b < a := by
  intro a b h hne
  apply Classical.byContradiction
  intro h'
  exact hne (String.le_antisymm (String.not_lt.1 h') (String.not_lt.1 h))

theorem pairwise_insertSorted : ∀ (key : String) (value : Bytes) {l : List (String × Bytes)},
    l.Pairwise (fun a b => a.1 < b.1) →
      (insertSorted key value l).Pairwise fun a b => a.1 < b.1 := by
  intro key value l
  induction l with
  | nil => intro _; exact List.pairwise_singleton _ _
  | cons a l ih =>
    intro h
    rcases List.pairwise_cons.1 h with ⟨first, rest⟩
    simp only [insertSorted]
    split
    · rename_i less
      refine List.pairwise_cons.2 ⟨?_, h⟩
      intro e he
      rcases List.mem_cons.1 he with he | he
      · exact he ▸ less
      · exact String.lt_trans less (first e he)
    · rename_i less
      split
      · rename_i equal
        exact List.pairwise_cons.2 ⟨fun e he => equal ▸ first e he, rest⟩
      · rename_i unequal
        refine List.pairwise_cons.2 ⟨?_, ih rest⟩
        intro e he
        rcases mem_insertSorted he with he | he
        · exact he ▸ lt_of_not_lt_of_ne less unequal
        · exact first e he

def insert (d : Dictionary) (key : String) (value : Bytes) : Dictionary :=
  ⟨insertSorted key value d.entries, pairwise_insertSorted key value d.sorted⟩

end Dictionary

end LedgerGateway.Wire
