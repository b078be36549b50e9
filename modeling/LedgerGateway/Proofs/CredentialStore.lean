import LedgerGateway.CredentialStore
import LedgerGateway.Proofs.Disk.Tree
import Mathlib

/-!
# The only file of a directory

Reading the only file of a directory gives what a relation says that knows no order of the entries
(`Gives`): the error of a visible entry that cannot be examined, if there is one, and otherwise what
follows from the visible regular files alone (`Picks`), whether there is none, one, or more.

The relation leaves open only which of several entries that cannot be examined is named.  So two
orders of the same entries give the same, or an error of the disk both times (`Gives.eq_or_isIo`).
Entries that are hidden, or are something else than a regular file, can be there or not, as long as
the other entries stay what they are; in a tree they do if their paths do not lead through them
(`readSingleFile_without`).
-/

namespace LedgerGateway.CredentialStore

variable {disk disk' : Disk} {directory name : String} {names names' found : List String}
  {r r' : Result Bytes}

/-! ### What is given -/

/-- Whether an entry is visible and a regular file. -/
def isCandidate (disk : Disk) (directory name : String) : Bool :=
  (disk.isFile (Disk.join directory name)).toOption == some true && !isHidden name

/-- It can be said of every visible entry whether it is a regular file. -/
def AreExamined (disk : Disk) (directory : String) (names : List String) : Prop :=
  ∀ name ∈ names, isHidden name = false →
    ∃ isFile, disk.isFile (Disk.join directory name) = .ok isFile

/-- What follows from the visible regular files of a directory. -/
inductive Picks (disk : Disk) (directory : String) : List String → Result Bytes → Prop
  | none : Picks disk directory [] (.error (.emptyStore directory))
  | single {name : String} {content : Bytes} :
      disk.read (Disk.join directory name) = .ok content →
      Picks disk directory [name] (.ok content)
  | unreadable {name : String} {cause : IoError} :
      disk.read (Disk.join directory name) = .error cause →
      Picks disk directory [name] (.error (.io (Disk.join directory name) cause))
  | several {candidates sorted : List String} : 2 ≤ candidates.length → sorted.Perm candidates →
      sorted.Pairwise (· ≤ ·) →
      Picks disk directory candidates (.error (.ambiguousStore directory sorted))

/-- What is given where these are the entries of a directory. -/
inductive Gives (disk : Disk) (directory : String) (names : List String) : Result Bytes → Prop
  | unexamined {name : String} {cause : IoError} : name ∈ names → isHidden name = false →
      disk.isFile (Disk.join directory name) = .error cause →
      Gives disk directory names (.error (.io (Disk.join directory name) cause))
  | examined {r : Result Bytes} : AreExamined disk directory names →
      Picks disk directory (names.filter (isCandidate disk directory)) r →
      Gives disk directory names r

def IsIo (r : Result Bytes) : Prop := ∃ path cause, r = .error (.io path cause)

/-! ### The files among the entries -/

theorem files_cons_of_ok {isFile : Bool} (h : disk.isFile (Disk.join directory name) = .ok isFile) :
    files disk directory (name :: names) =
      (files disk directory names).map fun others => if isFile then name :: others else others := by
  rw [files, h]
  cases files disk directory names <;> rfl

theorem files_cons_of_error {cause : IoError}
    (h : disk.isFile (Disk.join directory name) = .error cause) :
    files disk directory (name :: names) = .error (.io (Disk.join directory name) cause) := by
  rw [files, h]
  rfl

theorem files_of_examined
    (h : ∀ name ∈ names, ∃ isFile, disk.isFile (Disk.join directory name) = .ok isFile) :
    files disk directory names = .ok (names.filter fun name =>
      (disk.isFile (Disk.join directory name)).toOption == some true) := by
  induction names with
  | nil => rfl
  | cons name names ih =>
    obtain ⟨⟨isFile, hname⟩, hnames⟩ := List.forall_mem_cons.mp h
    rw [files_cons_of_ok hname, ih hnames]
    cases isFile <;> simp [hname, Except.map, Except.toOption]

/-- The first entry that cannot be examined is named. -/
theorem exists_files_eq_error
    (h : ∃ name ∈ names, ¬ ∃ isFile, disk.isFile (Disk.join directory name) = .ok isFile) :
    ∃ name ∈ names, ∃ cause, disk.isFile (Disk.join directory name) = .error cause ∧
      files disk directory names = .error (.io (Disk.join directory name) cause) := by
  induction names with
  | nil =>
    obtain ⟨_, hmem, -⟩ := h
    cases hmem
  | cons first names ih =>
    cases hfirst : disk.isFile (Disk.join directory first) with
    | error cause => exact ⟨first, List.mem_cons_self, cause, hfirst, files_cons_of_error hfirst⟩
    | ok isFile =>
      obtain ⟨name, hmem, hname⟩ := h
      have hrest : name ∈ names := by
        rcases List.mem_cons.mp hmem with rfl | hmem
        · exact absurd ⟨isFile, hfirst⟩ hname
        · exact hmem
      obtain ⟨found, hfound, cause, hcause, hfiles⟩ := ih ⟨name, hrest, hname⟩
      refine ⟨found, List.mem_cons_of_mem _ hfound, cause, hcause, ?_⟩
      rw [files_cons_of_ok hfirst, hfiles]
      rfl

theorem filter_visible (disk : Disk) (directory : String) (names : List String) :
    ((visible names).filter fun name =>
      (disk.isFile (Disk.join directory name)).toOption == some true) =
        names.filter (isCandidate disk directory) :=
  List.filter_filter

theorem mem_visible : name ∈ visible names ↔ name ∈ names ∧ isHidden name = false := by
  rw [visible, List.mem_filter, Bool.not_eq_true']

theorem pairwise_mergeSort (names : List String) :
    (names.mergeSort fun a b => decide (a ≤ b)).Pairwise (· ≤ ·) := by
  have hsorted : (names.mergeSort fun a b => decide (a ≤ b)).Pairwise
      fun a b => decide (a ≤ b) = true :=
    List.pairwise_mergeSort (by simpa using fun a b c => String.le_trans)
      (by simpa using String.le_total) names
  exact hsorted.imp of_decide_eq_true

/-- **What is read is what the entries say**, in whatever order they are listed. -/
theorem gives_readSingleFile (hlist : disk.list directory = .ok names) :
    Gives disk directory names (readSingleFile disk directory) := by
  rw [readSingleFile, singleFile, hlist]
  by_cases hexamined : AreExamined disk directory names
  · have hvisible : ∀ name ∈ visible names,
        ∃ isFile, disk.isFile (Disk.join directory name) = .ok isFile :=
      fun name hname => hexamined name (mem_visible.mp hname).1 (mem_visible.mp hname).2
    have hfiles := files_of_examined hvisible
    rw [filter_visible] at hfiles
    refine .examined hexamined ?_
    simp only [Except.mapError, bind, Except.bind, hfiles]
    rcases names.filter (isCandidate disk directory) with _ | ⟨name, _ | ⟨other, others⟩⟩
    · exact .none
    · show Picks disk directory [name] (readFile disk (Disk.join directory name))
      rw [readFile]
      cases hread : disk.read (Disk.join directory name) with
      | ok content => exact .single hread
      | error cause => exact .unreadable hread
    · exact .several (Nat.le_add_left 2 _) (List.mergeSort_perm _ _) (pairwise_mergeSort _)
  · have hunexamined : ∃ name ∈ visible names,
        ¬ ∃ isFile, disk.isFile (Disk.join directory name) = .ok isFile := by
      rw [AreExamined] at hexamined
      push Not at hexamined
      obtain ⟨name, hmem, hvisible, hname⟩ := hexamined
      exact ⟨name, mem_visible.mpr ⟨hmem, hvisible⟩, fun ⟨isFile, h⟩ => hname isFile h⟩
    obtain ⟨name, hname, cause, hcause, hfiles⟩ := exists_files_eq_error hunexamined
    obtain ⟨hmem, hvisible⟩ := mem_visible.mp hname
    simp only [Except.mapError, bind, Except.bind, hfiles]
    exact .unexamined hmem hvisible hcause

/-! ### The order of the entries -/

theorem Picks.perm (h : Picks disk directory names r) (hperm : names.Perm names') :
    Picks disk directory names' r := by
  cases h with
  | none =>
    rw [List.nil_perm.mp hperm]
    exact .none
  | single hread =>
    rw [← List.singleton_perm.mp hperm]
    exact .single hread
  | unreadable hread =>
    rw [← List.singleton_perm.mp hperm]
    exact .unreadable hread
  | several hlength hsorted hpairwise =>
    exact .several (hperm.length_eq ▸ hlength) (hsorted.trans hperm) hpairwise

theorem Picks.unique (h : Picks disk directory names r) (h' : Picks disk directory names r') :
    r = r' := by
  cases h with
  | none =>
    cases h' with
    | none => rfl
    | several hlength => cases hlength
  | single hread =>
    cases h' with
    | single hread' => exact congrArg Except.ok (Except.ok.inj (hread.symm.trans hread'))
    | unreadable hread' => cases hread.symm.trans hread'
    | several hlength => exact absurd hlength (by simp)
  | unreadable hread =>
    cases h' with
    | single hread' => cases hread.symm.trans hread'
    | unreadable hread' =>
      cases hread.symm.trans hread'
      rfl
    | several hlength => exact absurd hlength (by simp)
  | several hlength hsorted hpairwise =>
    cases h' with
    | none => cases hlength
    | single | unreadable => exact absurd hlength (by simp)
    | several _ hsorted' hpairwise' =>
      have heq := (hsorted.trans hsorted'.symm).eq_of_pairwise
        (fun _ _ _ _ => String.le_antisymm) hpairwise hpairwise'
      rw [heq]

theorem Gives.perm (h : Gives disk directory names r) (hperm : names.Perm names') :
    Gives disk directory names' r := by
  cases h with
  | unexamined hmem hvisible hcause => exact .unexamined (hperm.mem_iff.mp hmem) hvisible hcause
  | examined hexamined hpicks =>
    exact .examined (fun name hname => hexamined name (hperm.mem_iff.mpr hname))
      (hpicks.perm (hperm.filter _))

/-- Nothing is left open but which error of the disk is given. -/
theorem Gives.eq_or_isIo (h : Gives disk directory names r) (h' : Gives disk directory names r') :
    r = r' ∨ (IsIo r ∧ IsIo r') := by
  cases h with
  | unexamined hmem hvisible hcause =>
    cases h' with
    | unexamined => exact .inr ⟨⟨_, _, rfl⟩, _, _, rfl⟩
    | examined hexamined _ =>
      obtain ⟨_, hok⟩ := hexamined _ hmem hvisible
      cases hcause.symm.trans hok
  | examined hexamined hpicks =>
    cases h' with
    | unexamined hmem hvisible hcause =>
      obtain ⟨_, hok⟩ := hexamined _ hmem hvisible
      cases hcause.symm.trans hok
    | examined _ hpicks' => exact .inl (hpicks.unique hpicks')

theorem Gives.eq_ok {content : Bytes} (h : Gives disk directory names r)
    (h' : Gives disk directory names (.ok content)) : r = .ok content := by
  rcases h.eq_or_isIo h' with rfl | ⟨-, _, _, hio⟩
  · rfl
  · cases hio

theorem Gives.congr (h : Gives disk directory names r) (hisFile : disk'.isFile = disk.isFile)
    (hread : disk'.read = disk.read) : Gives disk' directory names r := by
  cases h with
  | unexamined hmem hvisible hcause => exact .unexamined hmem hvisible (hisFile ▸ hcause)
  | examined hexamined hpicks =>
    have hcandidate : isCandidate disk' directory = isCandidate disk directory := by
      funext name
      rw [isCandidate, isCandidate, hisFile]
    refine .examined (by rw [AreExamined, hisFile]; exact hexamined) ?_
    rw [hcandidate]
    generalize names.filter (isCandidate disk directory) = candidates at hpicks
    cases hpicks with
    | none => exact .none
    | single hcontent => exact .single (hread ▸ hcontent)
    | unreadable hcause => exact .unreadable (hread ▸ hcause)
    | several hlength hsorted hpairwise => exact .several hlength hsorted hpairwise

/-! ### Entries that do not count -/

section Kept

variable {keep : String → Bool}

theorem files_filter
    (hdropped : ∀ name ∈ names, keep name = false →
      disk.isFile (Disk.join directory name) = .ok false)
    (hkept : ∀ name ∈ names, keep name = true →
      disk'.isFile (Disk.join directory name) = disk.isFile (Disk.join directory name)) :
    files disk' directory (names.filter keep) = files disk directory names := by
  induction names with
  | nil => rfl
  | cons name names ih =>
    rw [List.forall_mem_cons] at hdropped hkept
    have ih := ih hdropped.2 hkept.2
    cases hname : keep name with
    | false =>
      have hnames : files disk directory (name :: names) = files disk directory names := by
        rw [files_cons_of_ok (hdropped.1 hname)]
        cases files disk directory names <;> rfl
      rw [List.filter_cons_of_neg (by simp [hname]), ih, hnames]
    | true =>
      rw [List.filter_cons_of_pos hname, files, files, hkept.1 hname, ih]

theorem mem_of_files (h : files disk directory names = .ok found) (hname : name ∈ found) :
    name ∈ names ∧ disk.isFile (Disk.join directory name) = .ok true := by
  induction names generalizing found with
  | nil =>
    cases h
    cases hname
  | cons first names ih =>
    cases hfirst : disk.isFile (Disk.join directory first) with
    | error cause =>
      rw [files_cons_of_error hfirst] at h
      cases h
    | ok isFile =>
      rw [files_cons_of_ok hfirst] at h
      cases hnames : files disk directory names with
      | error e =>
        rw [hnames] at h
        cases h
      | ok others =>
        rw [hnames] at h
        cases isFile with
        | false =>
          cases h
          obtain ⟨hmem, hfile⟩ := ih hnames hname
          exact ⟨List.mem_cons_of_mem _ hmem, hfile⟩
        | true =>
          cases h
          rcases List.mem_cons.mp hname with rfl | hname
          · exact ⟨List.mem_cons_self, hfirst⟩
          · obtain ⟨hmem, hfile⟩ := ih hnames hname
            exact ⟨List.mem_cons_of_mem _ hmem, hfile⟩

/-- **Entries that are hidden or are no regular files do not count**, as long as the other entries
stay what they are. -/
theorem readSingleFile_filter (hlist : disk.list directory = .ok names)
    (hlist' : disk'.list directory = .ok (names.filter keep))
    (hdropped : ∀ name ∈ names, isHidden name = false → keep name = false →
      disk.isFile (Disk.join directory name) = .ok false)
    (hkept : ∀ name ∈ names, isHidden name = false → keep name = true →
      disk'.isFile (Disk.join directory name) = disk.isFile (Disk.join directory name) ∧
      disk'.read (Disk.join directory name) = disk.read (Disk.join directory name)) :
    readSingleFile disk' directory = readSingleFile disk directory := by
  have hvisible : visible (names.filter keep) = (visible names).filter keep := by
    rw [visible, visible, List.filter_filter, List.filter_filter]
    congr 1
    funext name
    exact Bool.and_comm _ _
  have hfiles : files disk' directory (visible (names.filter keep)) =
      files disk directory (visible names) := by
    rw [hvisible]
    refine files_filter (fun name hname hkeep => ?_) fun name hname hkeep => ?_
    · exact hdropped name (mem_visible.mp hname).1 (mem_visible.mp hname).2 hkeep
    · exact (hkept name (mem_visible.mp hname).1 (mem_visible.mp hname).2 hkeep).1
  have hread : ∀ name, files disk directory (visible names) = .ok [name] →
      disk'.read (Disk.join directory name) = disk.read (Disk.join directory name) := by
    intro name hsingle
    obtain ⟨hname, hfile⟩ := mem_of_files hsingle (List.mem_singleton_self name)
    obtain ⟨hmem, hhidden⟩ := mem_visible.mp hname
    cases hkeep : keep name with
    | false => cases hfile.symm.trans (hdropped name hmem hhidden hkeep)
    | true => exact (hkept name hmem hhidden hkeep).2
  rw [readSingleFile, readSingleFile, singleFile, singleFile, hlist, hlist']
  simp only [Except.mapError, bind, Except.bind, hfiles]
  cases hfound : files disk directory (visible names) with
  | error e => rfl
  | ok found =>
    rcases found with _ | ⟨name, _ | ⟨other, others⟩⟩
    · rfl
    · show readFile disk' (Disk.join directory name) = readFile disk (Disk.join directory name)
      rw [readFile, readFile, hread name hfound]
    · rfl

end Kept

/-! ### Entries of a tree -/

open Disk (Tree)

variable {t : Tree} {place entries : List String}

/-- **Entries of a directory can be taken out of a tree or put into it**, if they are hidden or no
regular files and no path of another visible entry goes through them. -/
theorem readSingleFile_without
    (hdirectory : (t.without place entries).find directory = .ok (place, .directory))
    (hentries : ∀ name ∈ entries, name ∈ t.children place → isHidden name = false →
      t.toDisk.isFile (Disk.join directory name) = .ok false)
    (hothers : ∀ name ∉ entries, name ∈ t.children place → isHidden name = false →
      ∀ q, t.PathGoesThrough (Disk.join directory name) q → ¬ Tree.IsWithin place entries q) :
    readSingleFile (t.without place entries).toDisk directory =
      readSingleFile t.toDisk directory := by
  have hlist' := Tree.list_of_find hdirectory
  rw [Tree.children_without] at hlist'
  refine readSingleFile_filter (Tree.list_of_find (Tree.find_of_find_without hdirectory)) hlist'
    (fun name hmem hvisible hkeep => ?_) fun name hmem hvisible hkeep => ?_
  · exact hentries name (by simpa using hkeep) hmem hvisible
  · have hfind := Tree.find_without (hothers name (by simpa using hkeep) hmem hvisible)
    simp only [Tree.toDisk, hfind, and_self]

/-- **Nothing is guessed, and the order of the entries does not matter.**  What is read is what the
entries say that can be seen: a file if there is one, and otherwise an error that says which entries
were in the way.  It is the same in every order, but for which entry cannot be examined; and it does
not change with entries that are hidden or are no regular files, on a disk where the other entries
stay what they are, as they do in a tree where their paths do not go through those. -/
theorem readSingleFile_entries (directory : String) :
    (∀ disk names, disk.list directory = .ok names →
      Gives disk directory names (readSingleFile disk directory)) ∧
    (∀ disk disk' names names', disk.list directory = .ok names →
      disk'.list directory = .ok names' → names.Perm names' →
      disk'.isFile = disk.isFile → disk'.read = disk.read →
      readSingleFile disk directory = readSingleFile disk' directory ∨
        (IsIo (readSingleFile disk directory) ∧ IsIo (readSingleFile disk' directory))) ∧
    (∀ disk disk' names (keep : String → Bool), disk.list directory = .ok names →
      disk'.list directory = .ok (names.filter keep) →
      (∀ name ∈ names, isHidden name = false → keep name = false →
        disk.isFile (Disk.join directory name) = .ok false) →
      (∀ name ∈ names, isHidden name = false → keep name = true →
        disk'.isFile (Disk.join directory name) = disk.isFile (Disk.join directory name) ∧
        disk'.read (Disk.join directory name) = disk.read (Disk.join directory name)) →
      readSingleFile disk' directory = readSingleFile disk directory) ∧
    ∀ (t : Tree) place entries,
      (t.without place entries).find directory = .ok (place, .directory) →
      (∀ name ∈ entries, name ∈ t.children place → isHidden name = false →
        t.toDisk.isFile (Disk.join directory name) = .ok false) →
      (∀ name ∉ entries, name ∈ t.children place → isHidden name = false →
        ∀ q, t.PathGoesThrough (Disk.join directory name) q → ¬ Tree.IsWithin place entries q) →
      readSingleFile (t.without place entries).toDisk directory =
        readSingleFile t.toDisk directory := by
  refine ⟨fun disk names => gives_readSingleFile, ?_, ?_, ?_⟩
  · intro disk disk' names names' hlist hlist' hperm hisFile hread
    have hgives := gives_readSingleFile hlist
    have hgives' := (gives_readSingleFile hlist').perm hperm.symm
    exact hgives.eq_or_isIo (hgives'.congr hisFile.symm hread.symm)
  · exact fun disk disk' names keep => readSingleFile_filter
  · exact fun t place entries => readSingleFile_without

/-- A tree with a directory in which there are a key, something hidden, and a directory. -/
def sampleTree : Tree where
  nodes := [(["m"], .directory), (["m", ".DS_Store"], .file [0]), (["m", "k"], .file [1, 2]),
    (["m", "d"], .directory), (["m", "d", "k"], .file [3])]
  home := []

theorem find_sampleTree :
    sampleTree.find (Disk.join "m" "k") = .ok (["m", "k"], .file [1, 2]) ∧
    sampleTree.find (Disk.join "m" "d") = .ok (["m", "d"], .directory) := by
  constructor <;> cbv

theorem gives_sampleTree :
    Gives sampleTree.toDisk "m" [".DS_Store", "k", "d"] (.ok [1, 2]) := by
  have hkey := Tree.isFile_of_find find_sampleTree.1
  have hdirectory := Tree.isFile_of_find find_sampleTree.2
  have hhidden : isHidden ".DS_Store" = true := by decide +kernel
  have hvisible : isHidden "k" = false := by decide +kernel
  have hcandidates : [".DS_Store", "k", "d"].filter (isCandidate sampleTree.toDisk "m") =
      ["k"] := by
    simp [isCandidate, hhidden, hvisible, hkey, hdirectory, Except.toOption]
  refine .examined ?_ (hcandidates ▸ .single (Tree.read_of_find find_sampleTree.1))
  simp only [AreExamined, List.forall_mem_cons, List.not_mem_nil, false_imp_iff, implies_true,
    and_true, hhidden, Bool.true_eq_false, true_and]
  exact ⟨fun _ => ⟨_, hkey⟩, fun _ => ⟨_, hdirectory⟩⟩

/-- The key is read, with the other entries, in another order, and without them. -/
theorem readSingleFile_sampleTree :
    readSingleFile sampleTree.toDisk "m" = .ok [1, 2] ∧
    readSingleFile { sampleTree.toDisk with
      list := fun _ => .ok ["d", "k", ".DS_Store"] } "m" = .ok [1, 2] ∧
    readSingleFile (sampleTree.without ["m"] [".DS_Store", "d"]).toDisk "m" = .ok [1, 2] := by
  obtain ⟨hgives, horder, -, htree⟩ := readSingleFile_entries "m"
  have hlist : sampleTree.toDisk.list "m" = .ok [".DS_Store", "k", "d"] := by cbv
  have hread := (hgives _ _ hlist).eq_ok gives_sampleTree
  refine ⟨hread, ?_, ?_⟩
  · have hother := horder sampleTree.toDisk { sampleTree.toDisk with
      list := fun _ => .ok ["d", "k", ".DS_Store"] } _ _ hlist rfl (by decide) rfl rfl
    rw [hread] at hother
    rcases hother with hother | ⟨⟨_, _, hio⟩, -⟩
    · exact hother.symm
    · cases hio
  · have hchildren : sampleTree.children ["m"] = [".DS_Store", "k", "d"] := by cbv
    have hhidden : isHidden ".DS_Store" = true := by decide +kernel
    refine (htree sampleTree ["m"] [".DS_Store", "d"] (by cbv) ?_ ?_).trans hread
    · simp only [List.forall_mem_cons, List.not_mem_nil, false_imp_iff, implies_true, and_true,
        hhidden, Bool.true_eq_false, true_and]
      exact fun _ _ => Tree.isFile_of_find find_sampleTree.2
    · intro name hname hmem hvisible q hq
      obtain rfl : name = "k" := by
        rw [hchildren] at hmem
        simp only [List.mem_cons, List.not_mem_nil, or_false] at hmem hname
        tauto
      have hpath : Tree.names (Disk.join "m" "k") = ["m", "k"] := by cbv
      have horigin : Tree.origin sampleTree.home (Disk.join "m" "k") = [] := by cbv
      rw [Tree.PathGoesThrough, hpath, horigin] at hq
      have hentry : Tree.IsEntryName "m" ∧ Tree.IsEntryName "k" := by
        constructor <;> exact ⟨by decide, by decide, by decide⟩
      have hnodes : sampleTree.node? ["m"] = some .directory ∧
          sampleTree.node? ["m", "k"] = some (.file [1, 2]) := ⟨rfl, rfl⟩
      have hplaces : q = [] ∨ q = ["m"] ∨ q = ["m", "k"] := by
        rcases hq.of_down hentry.1 hnodes.1 (by rintro _ ⟨⟩) with rfl | hq
        · exact .inl rfl
        rcases hq.of_down hentry.2 hnodes.2 (by rintro _ ⟨⟩) with rfl | hq
        · exact .inr (.inl rfl)
        · exact .inr (.inr hq.eq_of_nil)
      rcases hplaces with rfl | rfl | rfl <;> decide

end LedgerGateway.CredentialStore
