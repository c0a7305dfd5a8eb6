import Mathlib.Data.List.Nodup
import Mathlib.Data.List.Sort
import TightLists.Notes.Basic
import TightLists.Proofs.NewDirectories
import TightLists.Proofs.PathsBelow

/-!
# The notes that a scan lists

A note below a directory is reached through directories alone, no links among them, and is
itself no directory, neither in the tree nor when its path is followed
(`FileTree.IsNoteBelow`).  Each directory is listed by its path, so a scan succeeds when
the paths of all directories below are short enough for the system, and then it lists
these notes, each one once and in order (`scanNotes_lists_notes_below`).  In which order
the tree holds its entries makes no difference.  This is about a process that may have a
directory open on every level.
-/

namespace TightLists

/-! ## Putting listings together -/

section

variable {α : Type} {items : List α} {result : α → Except NotesError (List Path)}

theorem gather_map_of_ok {listing : α → List Path}
    (each : ∀ item ∈ items, result item = .ok (listing item)) :
    gather (items.map result) = .ok (items.flatMap listing) := by
  induction items with
  | nil => rfl
  | cons item rest induction =>
      have here : result item = .ok (listing item) := each item List.mem_cons_self
      have later := induction fun other member => each other (List.mem_cons_of_mem item member)
      rw [List.map_cons, here, gather, later, List.flatMap_cons]
      rfl

theorem exists_gather_map_eq_error {item : α} {error : NotesError}
    (member : item ∈ items) (failed : result item = .error error) :
    ∃ first ∈ items, ∃ error, result first = .error error ∧
      gather (items.map result) = .error error := by
  induction items with
  | nil => cases member
  | cons head rest induction =>
      cases outcome : result head with
      | error early =>
          refine ⟨head, List.mem_cons_self, early, outcome, ?_⟩
          rw [List.map_cons, outcome, gather]
      | ok paths =>
          have inRest : item ∈ rest := by
            rcases List.mem_cons.mp member with rfl | inRest
            · rw [outcome] at failed
              cases failed
            · exact inRest
          obtain ⟨first, firstMember, error, firstFailed, gathered⟩ := induction inRest
          refine ⟨first, List.mem_cons_of_mem head firstMember, error, firstFailed, ?_⟩
          rw [List.map_cons, outcome, gather, gathered]
          rfl

end

theorem Name.isNote_iff {name : Name} :
    name.isNote = true ↔ ∃ stem, stem ≠ [] ∧ name.bytes = stem ++ noteSuffix := by
  rw [isNote, Bool.and_eq_true, List.isSuffixOf_iff_suffix, decide_eq_true_eq]
  constructor
  · intro ⟨⟨stem, split⟩, longer⟩
    refine ⟨stem, ?_, split.symm⟩
    intro empty
    rw [← split, empty, List.nil_append] at longer
    exact Nat.lt_irrefl _ longer
  · intro ⟨stem, nonempty, split⟩
    have stemLength : 0 < stem.length := List.length_pos_iff.mpr nonempty
    refine ⟨⟨stem, split.symm⟩, ?_⟩
    rw [split, List.length_append]
    omega

namespace FileTree

variable {tree : FileTree} {path : Path} {place : Place} {name : Name} {entry : Entry}

/-! ## Children -/

theorem mem_children_iff :
    (name, entry) ∈ tree.children place ↔ tree.entryAt? (name :: place) = some entry := by
  rw [entryAt?_cons_eq_some_iff]
  constructor
  · exact mem_entries_of_mem_children
  · intro listed
    exact List.mem_filterMap.mpr ⟨(name :: place, entry), listed, by simp⟩

theorem pairwise_children (tree : FileTree) (place : Place) :
    (tree.children place).Pairwise fun child other => child.1 ≠ other.1 := by
  have differentPlaces : tree.entries.Pairwise fun listed other => listed.1 ≠ other.1 :=
    List.pairwise_map.mp tree.distinct
  apply List.pairwise_filterMap.mpr
  refine differentPlaces.imp ?_
  intro (listed, entry) (otherListed, otherEntry) different child found other otherFound same
  apply different
  cases listed with
  | nil => cases found
  | cons name holder =>
      cases otherListed with
      | nil => cases otherFound
      | cons otherName otherHolder =>
          simp only [Option.ite_none_right_eq_some, Option.some.injEq] at found otherFound
          obtain ⟨rfl, rfl⟩ := found
          obtain ⟨rfl, rfl⟩ := otherFound
          exact congrArg (· :: otherHolder) same

/-- The way to whatever stands below a directory begins with one of its children. -/
theorem exists_mem_children {rest : List Name}
    (found : tree.entryAt? ((name :: rest).reverse ++ place) = some entry) :
    ∃ child, (name, child) ∈ tree.children place := by
  rw [List.reverse_cons, List.append_assoc, List.singleton_append] at found
  by_cases last : rest.reverse = []
  · rw [last] at found
    exact ⟨entry, mem_children_iff.mpr found⟩
  · have directory := isDirectoryAt_of_entryAt?_append last found
    exact ⟨.directory, mem_children_iff.mpr (isDirectoryAt_iff.mp directory)⟩

/-! ## Notes below a directory -/

/-- The names lead from the directory at a place to a note.  The given path leads to the
place. -/
structure IsNoteBelow (tree : FileTree) (path : Path) (place : Place)
    (names : List Name) : Prop where
  /-- Every name but the last one is that of a directory, and not of a link to one. -/
  through : ∀ front, front <+: names → front ≠ names →
    tree.entryAt? (front.reverse ++ place) = some .directory
  notDirectory : ∃ entry, tree.entryAt? (names.reverse ++ place) = some entry ∧
    entry ≠ .directory
  /-- Nor does a link lead from there to a directory. -/
  notToDirectory : tree.leadsToDirectory (path.descend names) = false
  /-- The last name is the suffix of notes with something before it. -/
  named : ∃ name stem, names.getLast? = some name ∧ stem ≠ [] ∧
    name.bytes = stem ++ noteSuffix

/-- Every directory below the one at a place has a path that the system takes. -/
def DirectoriesFit (tree : FileTree) (path : Path) (place : Place) : Prop :=
  ∀ names, tree.entryAt? (names.reverse ++ place) = some .directory →
    (path.descend names).bytes.length ≤ pathLimit

/-- What stands on the way is a directory in any case, as trees hold entries in nothing
else. -/
theorem isNoteBelow_iff {names : List Name} :
    tree.IsNoteBelow path place names ↔
      (∃ entry, tree.entryAt? (names.reverse ++ place) = some entry ∧ entry ≠ .directory) ∧
        tree.leadsToDirectory (path.descend names) = false ∧
        ∃ name stem, names.getLast? = some name ∧ stem ≠ [] ∧
          name.bytes = stem ++ noteSuffix := by
  constructor
  · intro note
    exact ⟨note.notDirectory, note.notToDirectory, note.named⟩
  · intro ⟨⟨entry, found, notDirectory⟩, notToDirectory, named⟩
    constructor
    · intro front isFront different
      obtain ⟨rest, rfl⟩ := isFront
      have remain : rest.reverse ≠ [] := by simpa using different
      have below : tree.entryAt? (rest.reverse ++ (front.reverse ++ place)) = some entry := by
        simpa using found
      exact isDirectoryAt_iff.mp (isDirectoryAt_of_entryAt?_append remain below)
    · exact ⟨entry, found, notDirectory⟩
    · exact notToDirectory
    · exact named

/-- A file below is a note if its name is that of one.  The path of a file leads to the
file, or nowhere when it is too long. -/
theorem isNoteBelow_iff_of_file (leads : tree.placeOf? path = some place)
    {names : List Name} {content : ByteArray}
    (file : tree.entryAt? (names.reverse ++ place) = some (.file content)) :
    tree.IsNoteBelow path place names ↔
      ∃ name stem, names.getLast? = some name ∧ stem ≠ [] ∧
        name.bytes = stem ++ noteSuffix := by
  have notToDirectory : tree.leadsToDirectory (path.descend names) = false := by
    rw [leadsToDirectory]
    by_cases fits : (path.descend names).bytes.length ≤ pathLimit
    · rw [placeOf?_descend leads file (by simp) fits]
      simp only [isDirectoryAt, file]
    · rw [placeOf?_eq_none_of_tooLong (Nat.lt_of_not_le fits)]
  rw [isNoteBelow_iff]
  constructor
  · intro conditions
    exact conditions.2.2
  · intro named
    exact ⟨⟨.file content, file, by simp⟩, notToDirectory, named⟩

theorem isNoteBelow_cons_of_directory
    (directory : tree.entryAt? (name :: place) = some .directory) {names : List Name} :
    tree.IsNoteBelow path place (name :: names) ↔
      tree.IsNoteBelow (path.join name.bytes) (name :: place) names := by
  have below : (name :: names).reverse ++ place = names.reverse ++ name :: place := by simp
  rw [isNoteBelow_iff, isNoteBelow_iff, below, Path.descend_cons]
  refine and_congr_right fun ⟨entry, found, notDirectory⟩ => and_congr_right fun _ => ?_
  cases names with
  | nil => exact absurd (Option.some.inj (found.symm.trans directory)) notDirectory
  | cons next rest => rw [List.getLast?_cons_cons]

theorem isNoteBelow_cons_of_leaf
    (found : tree.entryAt? (name :: place) = some entry) (leaf : entry ≠ .directory)
    {names : List Name} :
    tree.IsNoteBelow path place (name :: names) ↔
      names = [] ∧ name.isNote = true ∧
        tree.leadsToDirectory (path.join name.bytes) = false := by
  rw [isNoteBelow_iff, Name.isNote_iff]
  constructor
  · intro ⟨⟨last, lastFound, _⟩, notToDirectory, named⟩
    have single : names = [] := by
      by_contra more
      have below : tree.entryAt? (names.reverse ++ name :: place) = some last := by
        simpa using lastFound
      have directory : tree.isDirectoryAt (name :: place) = true :=
        isDirectoryAt_of_entryAt?_append (by simpa using more) below
      exact leaf (Option.some.inj (found.symm.trans (isDirectoryAt_iff.mp directory)))
    subst single
    obtain ⟨_, stem, isLast, named⟩ := named
    cases isLast
    exact ⟨rfl, ⟨stem, named⟩, notToDirectory⟩
  · intro ⟨single, ⟨stem, named⟩, notToDirectory⟩
    subst single
    exact ⟨⟨entry, found, leaf⟩, notToDirectory, name, stem, rfl, named⟩

/-! ## Listings -/

/-- What listing the notes below a place comes to, for those whose names are among the
given ones: all notes, each one once, or the error of a directory that cannot be listed. -/
inductive Lists (tree : FileTree) (path : Path) (place : Place)
    (among : List Name → Prop) : Except NotesError (List Path) → Prop where
  | all {listing : List (List Name)} :
      (∀ names, among names → tree.entryAt? (names.reverse ++ place) = some .directory →
        (path.descend names).bytes.length ≤ pathLimit) →
      listing.Nodup →
      (∀ names, names ∈ listing ↔ among names ∧ tree.IsNoteBelow path place names) →
      Lists tree path place among (.ok (listing.map path.descend))
  | tooLong {names : List Name} :
      tree.entryAt? (names.reverse ++ place) = some .directory →
      pathLimit < (path.descend names).bytes.length →
      Lists tree path place among (.error (.system (path.descend names) .nameTooLong))

theorem Lists.exists_listing {among : List Name → Prop}
    {result : Except NotesError (List Path)} (lists : tree.Lists path place among result)
    (succeeds : ∀ error, result ≠ .error error) :
    ∃ listing : List (List Name), result = .ok (listing.map path.descend) ∧
      (∀ names, among names → tree.entryAt? (names.reverse ++ place) = some .directory →
        (path.descend names).bytes.length ≤ pathLimit) ∧
      listing.Nodup ∧
      ∀ names, names ∈ listing ↔ among names ∧ tree.IsNoteBelow path place names := by
  cases lists with
  | all fit distinct members => exact ⟨_, rfl, fit, distinct, members⟩
  | tooLong found tooLong => exact absurd rfl (succeeds _)

/-- What the listing of a directory takes from one of its entries. -/
def notesOf (tree : FileTree) (path : Path) (place : Place) :
    Name × Entry → Except NotesError (List Path)
  | (name, .directory) => tree.notesBelow (path.join name.bytes) (name :: place)
  | (name, _) =>
      if name.isNote && !tree.leadsToDirectory (path.join name.bytes) then
        .ok [path.join name.bytes]
      else .ok []

theorem notesBelow_eq_gather_notesOf (fits : path.bytes.length ≤ pathLimit) :
    tree.notesBelow path place =
      gather ((tree.children place).map (tree.notesOf path place)) := by
  rw [notesBelow_eq_gather_map tree place fits]
  refine congrArg gather (List.map_congr_left ?_)
  intro (name, entry) _
  cases entry <;> rfl

theorem notesOf_of_leaf (leaf : entry ≠ .directory) :
    tree.notesOf path place (name, entry) =
      if name.isNote && !tree.leadsToDirectory (path.join name.bytes) then
        .ok [path.join name.bytes]
      else .ok [] := by
  cases entry with
  | directory => exact absurd rfl leaf
  | file content => rfl
  | link target => rfl

theorem lists_of_leaf
    (found : tree.entryAt? (name :: place) = some entry) (leaf : entry ≠ .directory) :
    tree.Lists path place (fun names => names.head? = some name)
      (tree.notesOf path place (name, entry)) := by
  have noDirectory : ∀ names : List Name, names.head? = some name →
      tree.entryAt? (names.reverse ++ place) = some .directory →
        (path.descend names).bytes.length ≤ pathLimit := by
    intro names below directory
    obtain ⟨rest, rfl⟩ := List.head?_eq_some_iff.mp below
    have deeper : tree.isDirectoryAt (rest.reverse ++ name :: place) = true := by
      apply isDirectoryAt_iff.mpr
      simpa using directory
    have same : some entry = some .directory :=
      found.symm.trans (isDirectoryAt_iff.mp (isDirectoryAt_of_append deeper))
    exact absurd (Option.some.inj same) leaf
  have onlyNote : ∀ names : List Name,
      (names.head? = some name ∧ tree.IsNoteBelow path place names) ↔
        names = [name] ∧ name.isNote = true ∧
          tree.leadsToDirectory (path.join name.bytes) = false := by
    intro names
    constructor
    · intro ⟨below, note⟩
      obtain ⟨rest, rfl⟩ := List.head?_eq_some_iff.mp below
      obtain ⟨rfl, isNote⟩ := (isNoteBelow_cons_of_leaf found leaf).mp note
      exact ⟨rfl, isNote⟩
    · intro ⟨single, isNote⟩
      subst single
      exact ⟨rfl, (isNoteBelow_cons_of_leaf found leaf).mpr ⟨rfl, isNote⟩⟩
  rw [notesOf_of_leaf leaf]
  split
  · rename_i isNote
    rw [Bool.and_eq_true, Bool.not_eq_true'] at isNote
    apply Lists.all noDirectory (List.nodup_singleton [name])
    intro names
    rw [onlyNote, List.mem_singleton, and_iff_left isNote]
  · rename_i noNote
    rw [Bool.and_eq_true, Bool.not_eq_true'] at noNote
    apply Lists.all noDirectory List.nodup_nil
    intro names
    rw [onlyNote, iff_false_right (fun isNote => noNote isNote.2)]
    exact List.not_mem_nil

theorem lists_of_directory
    (directory : tree.entryAt? (name :: place) = some .directory)
    (below : tree.Lists (path.join name.bytes) (name :: place) (fun _ => True)
      (tree.notesBelow (path.join name.bytes) (name :: place))) :
    tree.Lists path place (fun names => names.head? = some name)
      (tree.notesOf path place (name, .directory)) := by
  rw [notesOf]
  generalize tree.notesBelow (path.join name.bytes) (name :: place) = result at below
  cases below with
  | @all listing fit distinct members =>
      have paths : listing.map (path.join name.bytes).descend =
          (listing.map (name :: ·)).map path.descend := by
        rw [List.map_map]
        rfl
      rw [paths]
      apply Lists.all
      · intro names first found
        obtain ⟨rest, rfl⟩ := List.head?_eq_some_iff.mp first
        apply fit rest trivial
        simpa using found
      · exact distinct.map (List.cons_injective)
      · intro names
        constructor
        · intro member
          obtain ⟨rest, inListing, rfl⟩ := List.mem_map.mp member
          exact ⟨rfl, (isNoteBelow_cons_of_directory directory).mpr
            ((members rest).mp inListing).2⟩
        · intro ⟨first, note⟩
          obtain ⟨rest, rfl⟩ := List.head?_eq_some_iff.mp first
          apply List.mem_map_of_mem
          exact (members rest).mpr
            ⟨trivial, (isNoteBelow_cons_of_directory directory).mp note⟩
  | @tooLong names found tooLong =>
      have deeper : tree.entryAt? ((name :: names).reverse ++ place) = some .directory := by
        simpa using found
      exact .tooLong deeper tooLong

theorem lists_gather (here : tree.isDirectoryAt place = true)
    (fits : path.bytes.length ≤ pathLimit)
    (each : ∀ child ∈ tree.children place,
      tree.Lists path place (fun names => names.head? = some child.1)
        (tree.notesOf path place child)) :
    tree.Lists path place (fun _ => True)
      (gather ((tree.children place).map (tree.notesOf path place))) := by
  by_cases failed : ∃ child ∈ tree.children place, ∃ error,
      tree.notesOf path place child = .error error
  · obtain ⟨child, member, error, childFailed⟩ := failed
    obtain ⟨first, firstMember, firstError, firstFailed, gathered⟩ :=
      exists_gather_map_eq_error member childFailed
    have firstLists := each first firstMember
    rw [firstFailed] at firstLists
    rw [gathered]
    cases firstLists with
    | tooLong found tooLong => exact .tooLong found tooLong
  · have listed := fun child (member : child ∈ tree.children place) =>
      (each child member).exists_listing fun error childFailed =>
        failed ⟨child, member, error, childFailed⟩
    choose! listing outcome fit distinct members using listed
    rw [gather_map_of_ok outcome, ← List.map_flatMap]
    apply Lists.all
    · intro names _ found
      cases names with
      | nil => exact fits
      | cons name rest =>
          obtain ⟨child, member⟩ := exists_mem_children found
          exact fit (name, child) member (name :: rest) rfl found
    · apply List.nodup_flatMap.mpr
      refine ⟨distinct, (tree.pairwise_children place).imp_of_mem ?_⟩
      intro child other member otherMember different names inChild inOther
      have first := ((members child member names).mp inChild).1
      have otherFirst := ((members other otherMember names).mp inOther).1
      exact different (Option.some.inj (first.symm.trans otherFirst))
    · intro names
      rw [List.mem_flatMap]
      constructor
      · intro ⟨child, member, inChild⟩
        exact ⟨trivial, ((members child member names).mp inChild).2⟩
      · intro ⟨_, note⟩
        obtain ⟨entry, found, notDirectory⟩ := note.notDirectory
        cases names with
        | nil =>
            have same := found.symm.trans (isDirectoryAt_iff.mp here)
            exact absurd (Option.some.inj same) notDirectory
        | cons name rest =>
            obtain ⟨child, member⟩ := exists_mem_children found
            exact ⟨(name, child), member, (members _ member _).mpr ⟨rfl, note⟩⟩

theorem lists_notesBelow (here : tree.isDirectoryAt place = true) :
    tree.Lists path place (fun _ => True) (tree.notesBelow path place) := by
  induction path, place using FileTree.notesBelow.induct tree with
  | case1 path place tooLong =>
      rw [notesBelow, if_pos tooLong]
      have itself : tree.entryAt? (([] : List Name).reverse ++ place) = some .directory :=
        isDirectoryAt_iff.mp here
      exact .tooLong itself tooLong
  | case2 path place fits induction =>
      have fits : path.bytes.length ≤ pathLimit := Nat.le_of_not_lt fits
      rw [notesBelow_eq_gather_notesOf fits]
      apply lists_gather here fits
      intro child member
      obtain ⟨name, entry⟩ := child
      have found : tree.entryAt? (name :: place) = some entry := mem_children_iff.mp member
      by_cases leaf : entry = .directory
      · subst leaf
        exact lists_of_directory found
          (induction name member (isDirectoryAt_iff.mpr found))
      · exact lists_of_leaf found leaf

/-! ## Scans -/

variable {root : Path}

theorem of_directoryOf_eq_ok (directory : tree.directoryOf root = .ok place) :
    tree.placeOf? root = some place ∧ tree.isDirectoryAt place = true := by
  rw [directoryOf] at directory
  rw [placeOf?]
  split at directory
  · split at directory
    · rename_i found isDirectory
      cases directory
      rw [found]
      exact ⟨rfl, isDirectory⟩
    · cases directory
  · cases directory
  · cases directory

theorem directoryOf_eq_ok (leads : tree.placeOf? root = some place)
    (directory : tree.isDirectoryAt place = true) : tree.directoryOf root = .ok place := by
  rw [directoryOf, lookup_use_of_placeOf? leads]
  exact if_pos directory

theorem scanNotes_of_directoryOf (directory : tree.directoryOf root = .ok place) :
    tree.scanNotes root = (tree.notesBelow root place).map (·.mergeSort Path.atMost) := by
  have leads : tree.leadsSomewhere root = true := by
    rw [leadsSomewhere, (of_directoryOf_eq_ok directory).1]
    rfl
  rw [scanNotes, if_pos leads, directory]

theorem exists_lists_of_directoryOf (directory : tree.directoryOf root = .ok place) :
    ∃ result, tree.Lists root place (fun _ => True) result ∧
      tree.scanNotes root = result.map (·.mergeSort Path.atMost) :=
  ⟨_, lists_notesBelow (of_directoryOf_eq_ok directory).2,
    scanNotes_of_directoryOf directory⟩

theorem bytes_ne_nil_of_directoryOf (directory : tree.directoryOf root = .ok place) :
    root.bytes ≠ [] :=
  (placeOf?_eq_some_iff.mp (of_directoryOf_eq_ok directory).1).1

theorem exists_scanNotes_eq_ok (directory : tree.directoryOf root = .ok place)
    (fit : tree.DirectoriesFit root place) :
    ∃ notes : List (List Name),
      tree.scanNotes root = .ok (notes.map root.descend) ∧
      (∀ names, names ∈ notes ↔ tree.IsNoteBelow root place names) ∧
      notes.Pairwise ComesBefore := by
  obtain ⟨result, listed, scanned⟩ := exists_lists_of_directoryOf directory
  rw [scanned]
  cases listed with
  | @all listing _ distinct members =>
      obtain ⟨notes, permuted, sorted, inOrder⟩ :=
        Path.exists_mergeSort_descend (bytes_ne_nil_of_directoryOf directory) distinct
      refine ⟨notes, congrArg Except.ok sorted, ?_, inOrder⟩
      intro names
      rw [permuted.mem_iff, members, true_and]
  | tooLong found tooLong => exact absurd (fit _ found) (Nat.not_le.mpr tooLong)

theorem exists_scanNotes_eq_error (directory : tree.directoryOf root = .ok place)
    (unfit : ¬tree.DirectoriesFit root place) :
    ∃ names, tree.entryAt? (names.reverse ++ place) = some .directory ∧
      pathLimit < (root.descend names).bytes.length ∧
      tree.scanNotes root = .error (.system (root.descend names) .nameTooLong) := by
  obtain ⟨result, listed, scanned⟩ := exists_lists_of_directoryOf directory
  rw [scanned]
  cases listed with
  | all fit => exact absurd (fun names found => fit names trivial found) unfit
  | @tooLong names found tooLong => exact ⟨names, found, tooLong, rfl⟩

/-! ## The order of the entries -/

variable {other : FileTree}

theorem entryAt?_of_perm (reordered : other.entries.Perm tree.entries) (place : Place) :
    other.entryAt? place = tree.entryAt? place := by
  cases place with
  | nil => rfl
  | cons name holder =>
      apply Option.ext
      intro entry
      rw [entryAt?_cons_eq_some_iff, entryAt?_cons_eq_some_iff, reordered.mem_iff]

theorem placeOf?_congr (sameEntries : ∀ place, other.entryAt? place = tree.entryAt? place)
    (working : other.working = tree.working) (path : Path) :
    other.placeOf? path = tree.placeOf? path := by
  have grows : tree.GrowsInto other := fun place entry found =>
    (sameEntries place).trans found
  have shrinks : other.GrowsInto tree := fun place entry found =>
    (sameEntries place).symm.trans found
  apply Option.ext
  intro place
  exact ⟨shrinks.placeOf? working.symm, grows.placeOf? working⟩

theorem isDirectoryAt_congr
    (sameEntries : ∀ place, other.entryAt? place = tree.entryAt? place) (place : Place) :
    other.isDirectoryAt place = tree.isDirectoryAt place := by
  rw [isDirectoryAt, isDirectoryAt, sameEntries]

theorem isNoteBelow_congr
    (sameEntries : ∀ place, other.entryAt? place = tree.entryAt? place)
    (working : other.working = tree.working) {names : List Name}
    (note : tree.IsNoteBelow root place names) : other.IsNoteBelow root place names := by
  constructor
  · intro front isFront different
    rw [sameEntries]
    exact note.through front isFront different
  · rw [sameEntries]
    exact note.notDirectory
  · rw [leadsToDirectory, placeOf?_congr sameEntries working]
    simp only [isDirectoryAt_congr sameEntries]
    exact note.notToDirectory
  · exact note.named

/-- A scan gives the same answer for every order in which the tree lists its entries, as
long as it succeeds. -/
theorem scanNotes_of_perm (directory : tree.directoryOf root = .ok place)
    (fit : tree.DirectoriesFit root place) (reordered : other.entries.Perm tree.entries)
    (working : other.working = tree.working) :
    other.scanNotes root = tree.scanNotes root := by
  have sameEntries := entryAt?_of_perm reordered
  obtain ⟨leads, isDirectory⟩ := of_directoryOf_eq_ok directory
  have otherDirectory : other.directoryOf root = .ok place := by
    apply directoryOf_eq_ok
    · rwa [placeOf?_congr sameEntries working]
    · rwa [isDirectoryAt_congr sameEntries]
  have otherFit : other.DirectoriesFit root place := by
    intro names found
    exact fit names ((sameEntries _).symm.trans found)
  obtain ⟨notes, scanned, members, inOrder⟩ := exists_scanNotes_eq_ok directory fit
  obtain ⟨otherNotes, otherScanned, otherMembers, otherInOrder⟩ :=
    exists_scanNotes_eq_ok otherDirectory otherFit
  have sameMembers : ∀ names, names ∈ otherNotes ↔ names ∈ notes := by
    intro names
    rw [otherMembers, members]
    exact ⟨isNoteBelow_congr (fun place => (sameEntries place).symm) working.symm,
      isNoteBelow_congr sameEntries working⟩
  rw [scanned, otherScanned, otherInOrder.eq_of_mem_iff inOrder sameMembers]

/-- The scan of a directory ends.  If the paths of all directories below are short enough, it
lists exactly the notes below, each path once, in the order of their names, and whatever the
order of the entries in the tree.  Otherwise it fails at a directory whose path is too long. -/
theorem scanNotes_lists_notes_below (directory : tree.directoryOf root = .ok place) :
    (tree.DirectoriesFit root place →
      ∃ notes : List (List Name),
        tree.scanNotes root = .ok (notes.map root.descend) ∧
        (∀ names, names ∈ notes ↔ tree.IsNoteBelow root place names) ∧
        (notes.map root.descend).Nodup ∧
        notes.Pairwise ComesBefore ∧
        ∀ other : FileTree, other.entries.Perm tree.entries →
          other.working = tree.working → other.scanNotes root = tree.scanNotes root) ∧
    (¬tree.DirectoriesFit root place →
      ∃ names, tree.entryAt? (names.reverse ++ place) = some .directory ∧
        pathLimit < (root.descend names).bytes.length ∧
        tree.scanNotes root = .error (.system (root.descend names) .nameTooLong)) := by
  constructor
  · intro fit
    obtain ⟨notes, scanned, members, inOrder⟩ := exists_scanNotes_eq_ok directory fit
    have different : notes.Nodup := inOrder.nodup
    have nonempty : root.bytes ≠ [] := bytes_ne_nil_of_directoryOf directory
    exact ⟨notes, scanned, members, different.map (Path.descend_injective nonempty), inOrder,
      fun other reordered working => scanNotes_of_perm directory fit reordered working⟩
  · exact exists_scanNotes_eq_error directory

/-- A note in a directory, one beside it whose name goes on after that of the directory, and
a link that leads nowhere are listed.  A link back to the directory itself is not, nor is a
file whose name is the suffix alone. -/
theorem scanNotes_lists_beside_links :
    let folder : Name := { bytes := [0x64], valid := by decide }
    let inner : Name := { bytes := [0x73], valid := by decide }
    let note : Name := { bytes := 0x61 :: noteSuffix, valid := by decide }
    let beside : Name := { bytes := 0x73 :: noteSuffix, valid := by decide }
    let dangling : Name := { bytes := 0x78 :: noteSuffix, valid := by decide }
    let circle : Name := { bytes := 0x79 :: noteSuffix, valid := by decide }
    let bare : Name := { bytes := noteSuffix, valid := by decide }
    let tree := ((((((empty.add [] folder .directory).add [folder] circle
      (.link { bytes := [dot] })).add [folder] dangling (.link { bytes := [0x7A] })).add
      [folder] beside (.file .empty)).add [folder] bare (.file .empty)).add
      [folder] inner .directory).add [inner, folder] note (.file .empty)
    let root : Path := { bytes := folder.bytes }
    let notes := [[inner, note], [beside], [dangling]]
    tree.directoryOf root = .ok [folder] ∧ tree.DirectoriesFit root [folder] ∧
      tree.scanNotes root = .ok (notes.map root.descend) ∧
      (∀ names, names ∈ notes ↔ tree.IsNoteBelow root [folder] names) ∧
      ∀ other : FileTree, other.entries.Perm tree.entries →
        other.working = tree.working → other.scanNotes root = .ok (notes.map root.descend) := by
  intro folder inner note beside dangling circle bare tree root notes
  have directory : tree.directoryOf root = .ok [folder] := by decide +kernel
  have unsorted : tree.notesBelow root [folder] =
      .ok (notes.reverse.map root.descend) := by decide +kernel
  have scanned : tree.scanNotes root =
      .ok ((notes.reverse.map root.descend).mergeSort Path.atMost) := by
    rw [scanNotes_of_directoryOf directory, unsorted]
    rfl
  obtain ⟨lists, fails⟩ := tree.scanNotes_lists_notes_below directory
  have fit : tree.DirectoriesFit root [folder] := by
    by_contra unfit
    obtain ⟨names, -, -, failed⟩ := fails unfit
    rw [scanned] at failed
    cases failed
  obtain ⟨listed, listedScanned, members, -, inOrder, anyOrder⟩ := lists fit
  have sorted := Except.ok.inj (scanned.symm.trans listedScanned)
  have same : listed = notes := by
    apply inOrder.eq_of_mem_iff (by decide)
    intro names
    rw [Path.mem_iff_of_mergeSort_eq (bytes_ne_nil_of_directoryOf directory) sorted,
      List.mem_reverse]
  subst same
  exact ⟨directory, fit, listedScanned, members, fun other reordered working =>
    (anyOrder other reordered working).trans listedScanned⟩

/-- A directory is listed by its path, so a scan fails below a root that is spelled with
thousands of slashes. -/
theorem scanNotes_fails_below_long_root :
    let folder : Name := { bytes := [0x64], valid := by decide }
    let inner : Name := { bytes := [0x73, 0x75, 0x62], valid := by decide }
    let note : Name := { bytes := 0x61 :: noteSuffix, valid := by decide }
    let tree := ((empty.add [] folder .directory).add [folder] inner .directory).add
      [inner, folder] note (.file "x".toUTF8)
    let root : Path := { bytes := folder.bytes ++ List.replicate 4092 slash }
    tree.directoryOf root = .ok [folder] ∧
      tree.IsNoteBelow root [folder] [inner, note] ∧
      tree.scanNotes root = .error (.system (root.join inner.bytes) .nameTooLong) := by
  intro folder inner note tree root
  have rootLength : root.bytes.length = 4093 := by
    rw [List.length_append, List.length_replicate]
    rfl
  have closed : root.bytes.getLast? = some slash := by
    rw [List.getLast?_append, List.getLast?_replicate]
    rfl
  have leads : tree.placeOf? root = some [folder] := by
    have plainLeads : tree.placeOf? { bytes := folder.bytes } = some [folder] := by
      decide +kernel
    exact placeOf?_append_slashes plainLeads rfl (by decide)
  clear_value root
  have tooLong : pathLimit < (root.join inner.bytes).bytes.length := by
    rw [Path.join, if_pos (.inr closed), List.length_append, rootLength]
    decide
  have directory : tree.directoryOf root = .ok [folder] := directoryOf_eq_ok leads rfl
  refine ⟨directory, ?_, ?_⟩
  · have file : tree.entryAt? ([inner, note].reverse ++ [folder]) =
        some (.file "x".toUTF8) := rfl
    apply (isNoteBelow_iff_of_file leads file).mpr
    exact ⟨note, [0x61], rfl, by simp, rfl⟩
  · have children : tree.children [folder] = [(inner, .directory)] := rfl
    have fits : root.bytes.length ≤ pathLimit := by
      rw [rootLength]
      decide
    rw [scanNotes_of_directoryOf directory, notesBelow_eq_gather_notesOf fits, children,
      List.map_singleton, notesOf, notesBelow, if_pos tooLong]
    rfl

end FileTree

end TightLists
