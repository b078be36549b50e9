import LedgerGateway.Disk.Tree
import Mathlib.Data.List.Basic

/-!
# What a path goes through

To follow a path, a tree is asked what stands at some places: those that the path goes through
(`Tree.GoesThrough`).  Two trees that agree on these lead the path to the same place, or fail for
the same reason (`Tree.walk_congr`).

So entries of a directory can be taken away (`Tree.without`) where no path goes through them.  Their
names are gone from the listing of the directory (`Tree.children_without`), and a path that does not
go through them finds what it found before (`Tree.find_without`).  A path that still finds something
finds what it found before in any case (`Tree.find_of_find_without`).
-/

namespace LedgerGateway.Disk.Tree

variable {t t' : Tree} {links : Nat} {place path : List String} {name target : String}

/-! ### Steps -/

/-- A name that leads on to an entry. -/
def IsEntryName (name : String) : Prop :=
  ¬ (name = "" ∨ name = ".") ∧ name ≠ ".." ∧ ¬ 255 < name.utf8ByteSize

theorem walk_notDirectory (hplace : t.node? place ≠ some .directory) :
    t.walk links place (name :: path) = .error .notDirectory := by
  rw [walk, if_pos hplace]

section Directory

variable (hplace : t.node? place = some .directory)

include hplace

theorem walk_stay (hname : name = "" ∨ name = ".") :
    t.walk links place (name :: path) = t.walk links place path := by
  rw [walk, if_neg (not_not_intro hplace), if_pos hname]

theorem walk_up : t.walk links place (".." :: path) = t.walk links place.dropLast path := by
  rw [walk, if_neg (not_not_intro hplace), if_neg (by decide), if_pos rfl]

theorem walk_tooLong (hname : ¬ (name = "" ∨ name = ".")) (hup : name ≠ "..")
    (hlong : 255 < name.utf8ByteSize) :
    t.walk links place (name :: path) = .error .nameTooLong := by
  rw [walk, if_neg (not_not_intro hplace), if_neg hname, if_neg hup, if_pos hlong]

variable (hname : IsEntryName name)

include hname

theorem walk_missing (hnode : t.node? (place ++ [name]) = none) :
    t.walk links place (name :: path) = .error .notFound := by
  rw [walk, if_neg (not_not_intro hplace), if_neg hname.1, if_neg hname.2.1, if_neg hname.2.2,
    hnode]

theorem walk_lastLink (hnode : t.node? (place ++ [name]) = some (.link target)) :
    t.walk 0 place (name :: path) = .error .tooManyLinks := by
  rw [walk, if_neg (not_not_intro hplace), if_neg hname.1, if_neg hname.2.1, if_neg hname.2.2,
    hnode]

theorem walk_link (hnode : t.node? (place ++ [name]) = some (.link target)) :
    t.walk (links + 1) place (name :: path) =
      t.walk links (origin place target) (names target ++ path) := by
  rw [walk, if_neg (not_not_intro hplace), if_neg hname.1, if_neg hname.2.1, if_neg hname.2.2,
    hnode]

theorem walk_down {node : Node} (hnode : t.node? (place ++ [name]) = some node)
    (hlink : ∀ target, node ≠ .link target) :
    t.walk links place (name :: path) = t.walk links (place ++ [name]) path := by
  rw [walk, if_neg (not_not_intro hplace), if_neg hname.1, if_neg hname.2.1, if_neg hname.2.2,
    hnode]
  cases node with
  | link target => exact absurd rfl (hlink target)
  | directory | file | device => rfl

end Directory

/-! ### Places on the way -/

/-- Whoever follows names from a place, and may follow so many links, looks at a place. -/
inductive GoesThrough (t : Tree) : Nat → List String → List String → List String → Prop
  | start {links : Nat} {place path : List String} : GoesThrough t links place path place
  | stay {links : Nat} {place path q : List String} {name : String} :
      t.node? place = some .directory → name = "" ∨ name = "." →
      GoesThrough t links place path q → GoesThrough t links place (name :: path) q
  | up {links : Nat} {place path q : List String} :
      t.node? place = some .directory → GoesThrough t links place.dropLast path q →
      GoesThrough t links place (".." :: path) q
  | entry {links : Nat} {place path : List String} {name : String} :
      t.node? place = some .directory → IsEntryName name →
      GoesThrough t links place (name :: path) (place ++ [name])
  | link {links : Nat} {place path q : List String} {name target : String} :
      t.node? place = some .directory → IsEntryName name →
      t.node? (place ++ [name]) = some (.link target) →
      GoesThrough t links (origin place target) (names target ++ path) q →
      GoesThrough t (links + 1) place (name :: path) q
  | down {links : Nat} {place path q : List String} {name : String} {node : Node} :
      t.node? place = some .directory → IsEntryName name →
      t.node? (place ++ [name]) = some node → (∀ target, node ≠ .link target) →
      GoesThrough t links (place ++ [name]) path q → GoesThrough t links place (name :: path) q

/-- **Where a path leads depends on the places that it goes through only.** -/
theorem walk_congr (h : ∀ q, t.GoesThrough links place path q → t'.node? q = t.node? q) :
    t'.walk links place path = t.walk links place path := by
  -- A step asks about the place it is at, and about the entry if the name is that of one.
  fun_induction walk t links place path with
  | case1 links place => rw [walk]
  | case2 links place name path hplace => exact walk_notDirectory ((h _ .start).trans_ne hplace)
  | case3 links place name path hplace hname ih =>
    have hplace := not_not.mp hplace
    rw [walk_stay ((h _ .start).trans hplace) hname]
    exact ih fun q hq => h q (.stay hplace hname hq)
  | case4 links place path hplace _ ih =>
    have hplace := not_not.mp hplace
    rw [walk_up ((h _ .start).trans hplace)]
    exact ih fun q hq => h q (.up hplace hq)
  | case5 links place name path hplace hname hup hlong =>
    exact walk_tooLong ((h _ .start).trans (not_not.mp hplace)) hname hup hlong
  | case6 links place name path hplace hname hup hlong hnode =>
    have hplace := not_not.mp hplace
    have hentry := h _ (.entry hplace ⟨hname, hup, hlong⟩)
    exact walk_missing ((h _ .start).trans hplace) ⟨hname, hup, hlong⟩ (hentry.trans hnode)
  | case7 place name path hplace hname hup hlong target hnode =>
    have hplace := not_not.mp hplace
    have hentry := h _ (.entry hplace ⟨hname, hup, hlong⟩)
    exact walk_lastLink ((h _ .start).trans hplace) ⟨hname, hup, hlong⟩ (hentry.trans hnode)
  | case8 place name path hplace hname hup hlong target hnode links ih =>
    have hplace := not_not.mp hplace
    have hentry := h _ (.entry hplace ⟨hname, hup, hlong⟩)
    rw [walk_link ((h _ .start).trans hplace) ⟨hname, hup, hlong⟩ (hentry.trans hnode)]
    exact ih fun q hq => h q (.link hplace ⟨hname, hup, hlong⟩ hnode hq)
  | case9 links place name path hplace hname hup hlong node hlink hnode ih =>
    have hplace := not_not.mp hplace
    have hentry := h _ (.entry hplace ⟨hname, hup, hlong⟩)
    rw [walk_down ((h _ .start).trans hplace) ⟨hname, hup, hlong⟩ (hentry.trans hnode) hlink]
    exact ih fun q hq => h q (.down hplace ⟨hname, hup, hlong⟩ hnode hlink hq)

theorem GoesThrough.eq_of_nil {q : List String} (h : t.GoesThrough links place [] q) :
    q = place := by
  cases h
  rfl

theorem GoesThrough.of_down {q : List String} {node : Node} (hname : IsEntryName name)
    (hnode : t.node? (place ++ [name]) = some node) (hlink : ∀ target, node ≠ .link target)
    (h : t.GoesThrough links place (name :: path) q) :
    q = place ∨ t.GoesThrough links (place ++ [name]) path q := by
  cases h with
  | start => exact .inl rfl
  | stay _ hstay => exact absurd hstay hname.1
  | up => exact absurd rfl hname.2.1
  | entry => exact .inr .start
  | link _ _ hnode' _ =>
    cases hnode.symm.trans hnode'
    exact absurd rfl (hlink _)
  | down _ _ _ _ h => exact .inr h

/-- What a path leads to is at a place that it goes through. -/
theorem GoesThrough.of_walk {q : List String} (h : t.walk links place path = .ok q) :
    t.GoesThrough links place path q := by
  fun_induction walk t links place path with
  | case1 links place =>
    cases h
    exact .start
  | case3 links place name path hplace hname ih => exact .stay (not_not.mp hplace) hname (ih h)
  | case4 links place path hplace _ ih => exact .up (not_not.mp hplace) (ih h)
  | case8 place name path hplace hname hup hlong target hnode links ih =>
    exact .link (not_not.mp hplace) ⟨hname, hup, hlong⟩ hnode (ih h)
  | case9 links place name path hplace hname hup hlong node hlink hnode ih =>
    exact .down (not_not.mp hplace) ⟨hname, hup, hlong⟩ hnode hlink (ih h)
  | case2 | case5 | case6 | case7 => cases h

/-- Where less stands, a path leads where it leads, or nowhere. -/
theorem walk_of_walk {q : List String}
    (hless : ∀ q node, t'.node? q = some node → t.node? q = some node)
    (h : t'.walk links place path = .ok q) : t.walk links place path = .ok q := by
  fun_induction walk t' links place path with
  | case1 links place => rw [walk, h]
  | case3 links place name path hplace hname ih =>
    rw [walk_stay (hless _ _ (not_not.mp hplace)) hname, ih h]
  | case4 links place path hplace _ ih => rw [walk_up (hless _ _ (not_not.mp hplace)), ih h]
  | case8 place name path hplace hname hup hlong target hnode links ih =>
    rw [walk_link (hless _ _ (not_not.mp hplace)) ⟨hname, hup, hlong⟩ (hless _ _ hnode), ih h]
  | case9 links place name path hplace hname hup hlong node hlink hnode ih =>
    rw [walk_down (hless _ _ (not_not.mp hplace)) ⟨hname, hup, hlong⟩ (hless _ _ hnode) hlink, ih h]
  | case2 | case5 | case6 | case7 => cases h

/-! ### Trees with less in them -/

/-- A place is that of one of these entries of a directory, or is below it. -/
def IsWithin (directory : List String) (entries : List String) (q : List String) : Prop :=
  ∃ name ∈ entries, directory ++ [name] <+: q

instance (directory entries q : List String) : Decidable (IsWithin directory entries q) :=
  inferInstanceAs (Decidable (∃ name ∈ entries, directory ++ [name] <+: q))

/-- The tree without these entries of a directory, and without what is below them. -/
def without (t : Tree) (directory entries : List String) : Tree :=
  { t with nodes := t.nodes.filter fun (q, _) => ¬ IsWithin directory entries q }

variable {directory entries q : List String} {node : Node} {text : String}

theorem node?_without (hq : ¬ IsWithin directory entries q) :
    (t.without directory entries).node? q = t.node? q := by
  have hfind : (t.without directory entries).nodes.find? (·.1 == q) = t.nodes.find? (·.1 == q) := by
    rw [without, List.find?_filter]
    congr 1
    funext ⟨p, n⟩
    by_cases hp : p = q
    · simp [hp, hq]
    · simp [hp]
  rw [node?, node?, hfind]

theorem node?_without_eq_none (hq : IsWithin directory entries q) :
    (t.without directory entries).node? q = none := by
  have hne : q ≠ [] := by
    rintro rfl
    obtain ⟨name, -, hprefix⟩ := hq
    exact absurd (List.prefix_nil.mp hprefix) (List.append_ne_nil_of_right_ne_nil _ (by simp))
  rw [node?, if_neg hne, Option.map_eq_none_iff, List.find?_eq_none]
  rintro ⟨p, n⟩ hmem hp
  have hwithin := (List.mem_filter.mp hmem).2
  obtain rfl : p = q := beq_iff_eq.mp hp
  simp [hq] at hwithin

theorem node?_of_without (h : (t.without directory entries).node? q = some node) :
    t.node? q = some node := by
  by_cases hq : IsWithin directory entries q
  · rw [node?_without_eq_none hq] at h
    cases h
  · rwa [node?_without hq] at h

theorem isWithin_entry {name : String} :
    IsWithin directory entries (directory ++ [name]) ↔ name ∈ entries := by
  constructor
  · rintro ⟨other, hother, hprefix⟩
    rw [List.prefix_append_right_inj, List.cons_prefix_cons] at hprefix
    exact hprefix.1 ▸ hother
  · intro hname
    exact ⟨name, hname, List.prefix_refl _⟩

/-- The entries are gone from the directory, and only these. -/
theorem children_without :
    (t.without directory entries).children directory =
      (t.children directory).filter (· ∉ entries) := by
  rw [children, children, without, List.filterMap_filter, List.filter_filterMap]
  congr 1
  funext ⟨p, n⟩
  rcases List.eq_nil_or_concat p with rfl | ⟨front, name, rfl⟩
  · simp
  · by_cases hfront : front = directory
    · by_cases hname : name ∈ entries <;> simp [hfront, isWithin_entry, hname, Option.filter]
    · simp [hfront]

/-! ### Answers -/

theorem resolve_eq_ok_iff : t.resolve text = .ok q ↔
    (text.contains '\x00' = false ∧ text ≠ "" ∧ ¬ 4096 ≤ text.utf8ByteSize) ∧
      t.walk linkLimit (origin t.home text) (names text) = .ok q := by
  rw [resolve]
  split_ifs with hzero hempty hlong
  · simp [hzero]
  · simp [hempty]
  · simp [hlong]
  · simp [hzero, hempty, hlong]

theorem find_eq_ok_iff :
    t.find text = .ok (q, node) ↔ t.resolve text = .ok q ∧ t.node? q = some node := by
  rw [find]
  cases t.resolve text with
  | error e => simp [bind, Except.bind]
  | ok place =>
    simp only [bind, Except.bind, Except.ok.injEq]
    constructor
    · intro h
      split at h
      · rename_i found hfound
        cases h
        exact ⟨rfl, hfound⟩
      · cases h
    · rintro ⟨rfl, hnode⟩
      rw [hnode]
      rfl

theorem list_of_find (h : t.find text = .ok (q, .directory)) :
    t.toDisk.list text = .ok (t.children q) := by
  simp only [toDisk, bind, Except.bind, h]
  rfl

theorem isFile_of_find (h : t.find text = .ok (q, node)) :
    t.toDisk.isFile text = .ok (node matches .file _) := by
  simp only [toDisk, bind, Except.bind, h]
  cases node <;> rfl

theorem read_of_find {content : Bytes} (h : t.find text = .ok (q, .file content)) :
    t.toDisk.read text = .ok content := by
  simp only [toDisk, bind, Except.bind, h]
  rfl

def PathGoesThrough (t : Tree) (path : String) (q : List String) : Prop :=
  t.GoesThrough linkLimit (origin t.home path) (names path) q

/-- **A path finds what it found before**, if it does not go through what was taken away. -/
theorem find_without (h : ∀ q, t.PathGoesThrough text q → ¬ IsWithin directory entries q) :
    (t.without directory entries).find text = t.find text := by
  have hwalk : (t.without directory entries).walk linkLimit (origin t.home text) (names text) =
      t.walk linkLimit (origin t.home text) (names text) :=
    walk_congr fun q hq => node?_without (h q hq)
  have hresolve : (t.without directory entries).resolve text = t.resolve text := by
    rw [resolve, resolve, ← hwalk]
    rfl
  rw [find, find, hresolve]
  cases hplace : t.resolve text with
  | error e => rfl
  | ok place =>
    have hnode : (t.without directory entries).node? place = t.node? place :=
      node?_without (h place (.of_walk (resolve_eq_ok_iff.mp hplace).2))
    simp only [bind, Except.bind, hnode]

/-- A path that finds something found it before. -/
theorem find_of_find_without (h : (t.without directory entries).find text = .ok (q, node)) :
    t.find text = .ok (q, node) := by
  rw [find_eq_ok_iff, resolve_eq_ok_iff] at h ⊢
  obtain ⟨⟨hpath, hwalk⟩, hnode⟩ := h
  exact ⟨⟨hpath, walk_of_walk (fun _ _ => node?_of_without) hwalk⟩, node?_of_without hnode⟩

end LedgerGateway.Disk.Tree
