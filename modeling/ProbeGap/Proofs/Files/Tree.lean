import ProbeGap.Files.Tree

/-!
# What is found after a change

A file that was put at a path is found there, and every other file is found as before. Paths
are followed by directories alone, so writing files does not change where a path leads
(`FileTree.locate?_congr`), and new directories only lead on where nothing did before
(`FileTree.follow?_mono`). No directory is made in the place of a file, so what was a file stays
one (`FileTree.Extends`).

## Contents

  * `pathParts_childPath`: a child is the last part of its path.
  * `FileTree.Extends`: a tree with more directories.
  * `FileTree.canWrite`: when a file can be put at a path.
  * `FileTree.Puts`: a tree with one file more, and what is found in it.
-/

namespace ProbeGap

/-! ## §1. Children -/

theorem splitSlashes_ne_nil (s : List Char) : splitSlashes s ≠ [] := by
  cases s with
  | nil => exact List.cons_ne_nil _ _
  | cons c s =>
    unfold splitSlashes
    split
    · exact List.cons_ne_nil _ _
    · split <;> exact List.cons_ne_nil _ _

/-- A slash ends a part. -/
theorem splitSlashes_append (s s' : List Char) :
    splitSlashes (s ++ '/' :: s') = splitSlashes s ++ splitSlashes s' := by
  induction s with
  | nil => rfl
  | cons c s ih =>
    rw [List.cons_append, splitSlashes, splitSlashes, ih]
    split
    · rfl
    · obtain ⟨part, parts, hparts⟩ := List.exists_cons_of_ne_nil (splitSlashes_ne_nil s)
      rw [hparts]
      rfl

/-- A text that is the name of something within a directory. -/
structure IsName (name : String) : Prop where
  single : splitSlashes name.toList = [name.toList]
  notEmpty : name ≠ ""
  notHere : name ≠ "."
  notParent : name ≠ ".."

theorem pathParts_eq (path : String) :
    pathParts path = ((splitSlashes path.toList).map String.ofList).filter
      (fun part => part != "" && part != ".") := rfl

/-- The parts of a directory and a name behind a slash. -/
theorem pathParts_of_slash {path name : String} {s : List Char} (hname : IsName name)
    (hpath : path.toList = s ++ '/' :: name.toList) :
    pathParts path = ((splitSlashes s).map String.ofList).filter
      (fun part => part != "" && part != ".") ++ [name] := by
  rw [pathParts_eq, hpath, splitSlashes_append, hname.single, List.map_append, List.filter_append,
    List.map_singleton, String.ofList_toList]
  congr 1
  simp [hname.notEmpty, hname.notHere]

/-- A child is the last part of its path. -/
theorem pathParts_childPath (directory : String) {name : String} (hname : IsName name) :
    pathParts (childPath directory name) = pathParts directory ++ [name] := by
  unfold childPath
  rcases List.eq_nil_or_concat directory.toList with hnil | ⟨s, c, hlast⟩
  · -- The empty path leads to where one is.
    have hempty : directory = "" := String.toList_eq_nil_iff.mp hnil
    subst hempty
    have hparts : pathParts name = [name] := by
      rw [pathParts_eq, hname.single]
      simp [hname.notEmpty, hname.notHere]
    show pathParts ("" ++ name) = pathParts "" ++ [name]
    rw [String.empty_append, hparts]
    rfl
  · rw [List.concat_eq_append] at hlast
    rw [hlast, List.getLast?_append, List.getLast?_singleton, Option.some_or, Option.all_some]
    split
    case isTrue hslash =>
      have hc : c = '/' := by simpa using hslash
      subst hc
      have hchild : (directory ++ name).toList = s ++ '/' :: name.toList := by
        rw [String.toList_append, hlast, List.append_assoc, List.singleton_append]
      rw [pathParts_of_slash hname hchild, pathParts_eq, hlast, splitSlashes_append,
        List.map_append, List.filter_append]
      simp [splitSlashes]
    case isFalse =>
      have hchild : (directory ++ "/" ++ name).toList
          = directory.toList ++ '/' :: name.toList := by
        rw [String.toList_append, String.toList_append, List.append_assoc]
        rfl
      rw [pathParts_of_slash hname hchild, pathParts_eq]

namespace FileTree

variable {t t' : FileTree}

/-! ## §2. Following paths -/

/-- A path that ends in a name leads to a place of that name. -/
theorem getLast?_of_follow? {names : List String} {name : String} {place found : FilePlace}
    (hname : name ≠ "..") (h : t.follow? place (names ++ [name]) = some found) :
    found.getLast? = some name := by
  induction names generalizing place with
  | nil =>
    rw [List.nil_append, follow?] at h
    split at h
    · cases h
    · rw [if_neg (by simpa using hname), follow?] at h
      cases h
      exact List.getLast?_concat
  | cons first names ih =>
    rw [List.cons_append, follow?] at h
    split at h
    · cases h
    · split at h
      · exact ih h
      · exact ih h

/-- Two names in a directory lead to different places. -/
theorem locate?_siblings {directory name name' : String} (hname : IsName name)
    (hname' : IsName name') (hne : name ≠ name')
    (h : (t.locate? (childPath directory name)).isSome = true) :
    t.locate? (childPath directory name) ≠ t.locate? (childPath directory name') := by
  have hlast : ∀ {child : String} {place : FilePlace}, IsName child →
      t.locate? (childPath directory child) = some place → place.getLast? = some child := by
    intro child place hchild hplace
    unfold locate? at hplace
    split at hplace
    · cases hplace
    · rw [pathParts_childPath directory hchild] at hplace
      exact getLast?_of_follow? hchild.notParent hplace
  obtain ⟨place, hplace⟩ := Option.isSome_iff_exists.mp h
  intro heq
  have hfirst := hlast hname hplace
  rw [hlast hname' (heq.symm.trans hplace)] at hfirst
  exact hne (Option.some.inj hfirst).symm

theorem follow?_congr (h : t'.directories = t.directories) (names : List String)
    (place : FilePlace) : t'.follow? place names = t.follow? place names := by
  induction names generalizing place with
  | nil => rfl
  | cons name names ih =>
    unfold follow? isDirectory
    rw [h, ih, ih]

theorem locate?_congr (h : t'.directories = t.directories) (path : String) :
    t'.locate? path = t.locate? path := by
  unfold locate?
  rw [follow?_congr h]

/-- The same files, and directories where there were no files. -/
structure Extends (t' t : FileTree) : Prop where
  files : t'.files = t.files
  kept : ∀ place, t.isDirectory place = true → t'.isDirectory place = true
  new : ∀ place, t.isFile place = true → t.isDirectory place = false →
    t'.isDirectory place = false

theorem Extends.refl (t : FileTree) : t.Extends t :=
  ⟨rfl, fun _ h => h, fun _ _ h => h⟩

theorem Extends.trans {t'' : FileTree} (h' : t''.Extends t') (h : t'.Extends t) :
    t''.Extends t where
  files := h'.files.trans h.files
  kept := fun place hplace => h'.kept place (h.kept place hplace)
  new := by
    intro place hfile hfree
    have hfile' : t'.isFile place = true := by
      unfold isFile
      rw [h.files]
      exact hfile
    exact h'.new place hfile' (h.new place hfile hfree)

/-- A directory that is made where there is no file. -/
theorem extends_cons {place : FilePlace} (hfree : t.isFile place = false) :
    Extends { t with directories := place :: t.directories } t where
  files := rfl
  kept := by
    intro p hp
    simp only [isDirectory, Bool.or_eq_true, List.contains_cons] at hp ⊢
    exact hp.imp_right Or.inr
  new := by
    intro p hfile hp
    have hne : p ≠ place := by
      rintro rfl
      rw [hfree] at hfile
      cases hfile
    simp only [isDirectory, Bool.or_eq_false_iff, List.contains_cons] at hp ⊢
    exact ⟨hp.1, beq_false_of_ne hne, hp.2⟩

/-- Making directories leaves all files where they are. -/
theorem extends_of_create? {names : List String} {place : FilePlace}
    (h : t.create? place names = some t') : t'.Extends t := by
  induction names generalizing t place with
  | nil =>
    cases h
    exact .refl _
  | cons name names ih =>
    unfold create? at h
    dsimp only at h
    split at h
    · exact ih h
    · split at h
      · exact ih h
      · split at h
        · cases h
        · rename_i hfree
          exact (ih h).trans (extends_cons (Bool.eq_false_iff.mpr hfree))

/-- With more directories paths lead where they led. -/
theorem follow?_mono (h : t'.Extends t) {names : List String} {place found : FilePlace}
    (hfound : t.follow? place names = some found) : t'.follow? place names = some found := by
  induction names generalizing place with
  | nil => exact hfound
  | cons name names ih =>
    rw [follow?] at hfound ⊢
    split at hfound
    · cases hfound
    · rename_i hdirectory
      have hplace : t.isDirectory place = true := by simpa using hdirectory
      rw [h.kept place hplace]
      split at hfound
      · rename_i hparent
        rw [if_neg (by simp), if_pos hparent]
        exact ih hfound
      · rename_i hparent
        rw [if_neg (by simp), if_neg hparent]
        exact ih hfound

/-! ## §3. Files -/

/-- What has to hold for a file to be found at a path. -/
theorem content_eq_file_iff {path : String} {bytes : ByteArray} :
    t.content path = .file bytes ↔ ∃ place, t.locate? path = some place ∧
      t.isDirectory place = false ∧ namesDirectory path = false ∧
        t.files.lookup place = some bytes := by
  unfold content
  cases t.locate? path with
  | none => simp
  | some place =>
    cases hdirectory : t.isDirectory place <;> cases hnames : namesDirectory path <;>
      cases hlookup : t.files.lookup place <;> simp [hdirectory, hlookup]

theorem isFile_of_lookup {place : FilePlace} {bytes : ByteArray}
    (h : t.files.lookup place = some bytes) : t.isFile place = true := by
  obtain ⟨before, after, hfiles, -⟩ := List.lookup_eq_some_iff.mp h
  unfold isFile
  rw [hfiles, List.any_eq_true]
  exact ⟨(place, bytes), by simp, beq_self_eq_true place⟩

/-- Files are found as before when directories are made. -/
theorem content_of_extends (h : t'.Extends t) {path : String} {bytes : ByteArray}
    (hfile : t.content path = .file bytes) : t'.content path = .file bytes := by
  obtain ⟨place, hplace, hfree, hnames, hlookup⟩ := content_eq_file_iff.mp hfile
  refine content_eq_file_iff.mpr ⟨place, ?_, ?_, hnames, ?_⟩
  · unfold locate? at hplace ⊢
    split at hplace
    · cases hplace
    · rename_i hpath
      rw [if_neg hpath]
      exact follow?_mono h hplace
  · exact h.new place (isFile_of_lookup hlookup) hfree
  · rw [h.files]
    exact hlookup

/-- Whether a file can be put at a path. -/
def canWrite (t : FileTree) (path : String) : Bool :=
  match t.locate? path with
  | none => false
  | some place => !(t.isDirectory place || namesDirectory path)

theorem canWrite_iff {path : String} :
    t.canWrite path = true ↔ ∃ place, t.locate? path = some place ∧
      t.isDirectory place = false ∧ namesDirectory path = false := by
  unfold canWrite
  cases t.locate? path with
  | none => simp
  | some place => simp

/-- Files do not stand in the way of files. -/
theorem canWrite_congr (h : t'.directories = t.directories) (path : String) :
    t'.canWrite path = t.canWrite path := by
  unfold canWrite isDirectory
  rw [locate?_congr h, h]

/-- The tree `t'` is `t` with a file put at a path. -/
structure Puts (t : FileTree) (path : String) (bytes : ByteArray) (t' : FileTree) : Prop where
  canWrite : t.canWrite path = true
  directories : t'.directories = t.directories
  files : ∃ place, t.locate? path = some place ∧ t'.files = (place, bytes) :: t.files

/-- What is written does not matter to whether it can be. -/
theorem exists_write? {path : String} (h : t.canWrite path = true) (bytes : ByteArray) :
    ∃ t', t.write? path bytes = some t' ∧ t.Puts path bytes t' := by
  obtain ⟨place, hplace, hfree, hnames⟩ := canWrite_iff.mp h
  refine ⟨{ t with files := (place, bytes) :: t.files }, ?_, h, rfl, place, hplace, rfl⟩
  unfold write?
  rw [hplace]
  simp [hfree, hnames]

/-- A file that was put at a path is found there. -/
theorem Puts.content_self {path : String} {bytes : ByteArray} (h : t.Puts path bytes t') :
    t'.content path = .file bytes := by
  obtain ⟨place, hplace, hfree, hnames⟩ := canWrite_iff.mp h.canWrite
  obtain ⟨found, hfound, hfiles⟩ := h.files
  cases hplace.symm.trans hfound
  refine content_eq_file_iff.mpr ⟨place, ?_, ?_, hnames, ?_⟩
  · rw [locate?_congr h.directories, hplace]
  · unfold isDirectory
    rw [h.directories]
    exact hfree
  · rw [hfiles, List.lookup_cons_self]

/-- Other files are found as before. -/
theorem Puts.content_other {path other : String} {bytes content : ByteArray}
    (h : t.Puts path bytes t') (hother : t.locate? other ≠ t.locate? path)
    (hfile : t.content other = .file content) : t'.content other = .file content := by
  obtain ⟨found, hfound, hfree, hnames, hlookup⟩ := content_eq_file_iff.mp hfile
  obtain ⟨place, hplace, hfiles⟩ := h.files
  refine content_eq_file_iff.mpr ⟨found, ?_, ?_, hnames, ?_⟩
  · rw [locate?_congr h.directories, hfound]
  · unfold isDirectory
    rw [h.directories]
    exact hfree
  · have hne : found ≠ place := by
      rintro rfl
      exact hother (hfound.trans hplace.symm)
    rw [hfiles, List.lookup_cons, beq_false_of_ne hne]
    exact hlookup

end FileTree

end ProbeGap
