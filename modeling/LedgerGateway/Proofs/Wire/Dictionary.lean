import LedgerGateway.Wire.Dictionary
import Mathlib.Data.List.Nodup

/-!
# Putting entries into a dictionary

A dictionary is its set of entries (`Dictionary.ext_mem`), and putting in an entry takes away the one
of the same name (`Dictionary.mem_insert`).  Putting in many, one after the other
(`Dictionary.insertAll`), is the same in every order as long as their names differ
(`Dictionary.insertAll_perm`).
-/

namespace LedgerGateway.Wire.Dictionary

/-! ### Entries -/

/-- The names in sorted entries differ. -/
theorem nodup_names : ∀ d : Dictionary, (d.entries.map Prod.fst).Nodup := by
  intro d
  refine List.Pairwise.map Prod.fst ?_ d.sorted
  intro a b hlt heq
  exact String.lt_irrefl _ (heq ▸ hlt)

theorem nodup_entries : ∀ d : Dictionary, d.entries.Nodup := by
  intro d
  exact d.nodup_names.of_map _

/-- A dictionary is its set of entries. -/
theorem ext_mem {d e : Dictionary} (h : ∀ x, x ∈ d.entries ↔ x ∈ e.entries) : d = e := by
  have hperm : d.entries.Perm e.entries :=
    (List.perm_ext_iff_of_nodup d.nodup_entries e.nodup_entries).2 h
  refine ext (hperm.eq_of_pairwise ?_ d.sorted e.sorted)
  intro a b _ _ hab hba
  exact absurd (String.lt_trans hab hba) (String.lt_irrefl _)

/-- The new entry is there, and so is every old one of another name. -/
theorem mem_insertSorted_iff {key : String} {value : Bytes} {x : String × Bytes} :
    ∀ {l : List (String × Bytes)}, l.Pairwise (fun a b => a.1 < b.1) →
      (x ∈ insertSorted key value l ↔ x = (key, value) ∨ x.1 ≠ key ∧ x ∈ l) := by
  intro l
  induction l with
  | nil => simp [insertSorted]
  | cons a l ih =>
    intro h
    obtain ⟨first, rest⟩ := List.pairwise_cons.1 h
    simp only [insertSorted]
    by_cases less : key < a.1
    · -- Every old name is behind the new one.
      have hne : ∀ y ∈ a :: l, y.1 ≠ key := by
        intro y hy heq
        rcases List.mem_cons.1 hy with rfl | hy
        · exact String.lt_irrefl _ (heq ▸ less)
        · exact String.lt_irrefl _ (heq ▸ String.lt_trans less (first y hy))
      rw [if_pos less, List.mem_cons]
      exact or_congr_right ⟨fun hx => ⟨hne x hx, hx⟩, And.right⟩
    · rw [if_neg less]
      by_cases equal : key = a.1
      · have hne : ∀ y ∈ l, y.1 ≠ key := by
          intro y hy heq
          exact String.lt_irrefl _ (equal ▸ heq ▸ first y hy)
        rw [if_pos equal, List.mem_cons]
        refine or_congr_right ⟨fun hx => ⟨hne x hx, List.mem_cons_of_mem _ hx⟩, ?_⟩
        rintro ⟨hx, hmem⟩
        rcases List.mem_cons.1 hmem with rfl | hmem
        · exact absurd equal.symm hx
        · exact hmem
      · rw [if_neg equal, List.mem_cons, ih rest, List.mem_cons]
        constructor
        · rintro (rfl | hx | ⟨hx, hmem⟩)
          · exact .inr ⟨fun h => equal h.symm, .inl rfl⟩
          · exact .inl hx
          · exact .inr ⟨hx, .inr hmem⟩
        · rintro (hx | ⟨hx, rfl | hmem⟩)
          · exact .inr (.inl hx)
          · exact .inl rfl
          · exact .inr (.inr ⟨hx, hmem⟩)

theorem mem_insert {d : Dictionary} {key : String} {value : Bytes} {x : String × Bytes} :
    x ∈ (d.insert key value).entries ↔ x = (key, value) ∨ x.1 ≠ key ∧ x ∈ d.entries :=
  mem_insertSorted_iff d.sorted

/-! ### Many entries -/

def insertAll (d : Dictionary) (es : List (String × Bytes)) : Dictionary :=
  es.foldl (fun d e => d.insert e.1 e.2) d

@[simp]
theorem insertAll_nil (d : Dictionary) : d.insertAll [] = d := rfl

@[simp]
theorem insertAll_cons (d : Dictionary) (e : String × Bytes) (es : List (String × Bytes)) :
    d.insertAll (e :: es) = (d.insert e.1 e.2).insertAll es := rfl

theorem mem_insertAll {x : String × Bytes} : ∀ {es : List (String × Bytes)} {d : Dictionary},
    (es.map Prod.fst).Nodup →
      (x ∈ (d.insertAll es).entries ↔ x ∈ es ∨ x.1 ∉ es.map Prod.fst ∧ x ∈ d.entries) := by
  intro es
  induction es with
  | nil => simp
  | cons e es ih =>
    intro d h
    obtain ⟨hfresh, hnodup⟩ := List.nodup_cons.1 h
    rw [insertAll_cons, ih hnodup, mem_insert, List.mem_cons, List.map_cons, List.mem_cons]
    constructor
    · rintro (hx | ⟨hx, rfl | ⟨hne, hmem⟩⟩)
      · exact .inl (.inr hx)
      · exact .inl (.inl rfl)
      · exact .inr ⟨not_or.2 ⟨hne, hx⟩, hmem⟩
    · rintro ((rfl | hx) | ⟨hx, hmem⟩)
      · exact .inr ⟨hfresh, .inl rfl⟩
      · exact .inl hx
      · obtain ⟨hne, hx⟩ := not_or.1 hx
        exact .inr ⟨hx, .inr ⟨hne, hmem⟩⟩

/-- **The order of the entries does not matter**, as long as they are those of a dictionary. -/
theorem insertAll_perm {es : List (String × Bytes)} (d : Dictionary) {e : Dictionary}
    (h : es.Perm e.entries) : d.insertAll es = d.insertAll e.entries := by
  have hnames : (es.map Prod.fst).Perm (e.entries.map Prod.fst) := h.map Prod.fst
  apply ext_mem
  intro x
  rw [mem_insertAll (hnames.nodup_iff.2 e.nodup_names), mem_insertAll e.nodup_names, h.mem_iff,
    hnames.mem_iff]

theorem empty_insertAll (d : Dictionary) : empty.insertAll d.entries = d := by
  apply ext_mem
  intro x
  rw [mem_insertAll d.nodup_names]
  simp [empty]

end LedgerGateway.Wire.Dictionary
