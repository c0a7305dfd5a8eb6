import TightLists.Notes.Basic

/-!
# What files hold, and what does not depend on it

`FileTree.mapContents` changes what the files of a tree hold and nothing else.
Every entry keeps its place and its kind, so paths lead where they led before
and a directory holds the same notes: no lookup and no scan sees the difference.
-/

namespace TightLists

/-- The entry with its content changed, if it is a file. -/
def Entry.mapContent (change : ByteArray → ByteArray) : Entry → Entry
  | .file content => .file (change content)
  | other => other

@[simp] theorem Entry.mapContent_directory (change : ByteArray → ByteArray) :
    Entry.directory.mapContent change = .directory := rfl

@[simp] theorem Entry.mapContent_link (change : ByteArray → ByteArray) (target : Path) :
    (Entry.link target).mapContent change = .link target := rfl

@[simp] theorem Entry.mapContent_file (change : ByteArray → ByteArray)
    (content : ByteArray) :
    (Entry.file content).mapContent change = .file (change content) := rfl

@[simp] theorem Entry.mapContent_eq_directory_iff
    {change : ByteArray → ByteArray} {entry : Entry} :
    entry.mapContent change = .directory ↔ entry = .directory := by
  cases entry <;> simp [Entry.mapContent]

namespace FileTree

/-- Trees are the same when they list the same and have the same working
directory. -/
theorem eq_of_entries_eq {first second : FileTree}
    (entries : first.entries = second.entries)
    (working : first.working = second.working) : first = second := by
  cases first
  cases second
  simp only at entries working
  subst entries working
  rfl

/-- Changes what a listed file holds, as its place tells. -/
def changeListed (change : Place → ByteArray → ByteArray) (listed : Place × Entry) :
    Place × Entry :=
  (listed.1, listed.2.mapContent (change listed.1))

theorem map_fst_map_changeListed (change : Place → ByteArray → ByteArray)
    (entries : List (Place × Entry)) :
    (entries.map (changeListed change)).map Prod.fst = entries.map Prod.fst := by
  rw [List.map_map]
  rfl

theorem directory_mem_map_changeListed {change : Place → ByteArray → ByteArray}
    {entries : List (Place × Entry)} {holder : Place}
    (member : (holder, Entry.directory) ∈ entries) :
    (holder, Entry.directory) ∈ entries.map (changeListed change) :=
  List.mem_map.mpr ⟨_, member, rfl⟩

/-- The tree in which what the files hold is changed, as their places tell. -/
def mapContents (tree : FileTree) (change : Place → ByteArray → ByteArray) :
    FileTree :=
  { entries := tree.entries.map (changeListed change)
    working := tree.working
    distinct := (map_fst_map_changeListed change tree.entries).symm ▸ tree.distinct
    held := by
      intro place entry member
      obtain ⟨⟨listed, old⟩, listedMember, equality⟩ := List.mem_map.mp member
      obtain ⟨name, holder, split, directory⟩ := tree.held listed old listedMember
      have samePlace : listed = place := congrArg Prod.fst equality
      exact ⟨name, holder, samePlace ▸ split,
        directory.imp id directory_mem_map_changeListed⟩
    working_directory :=
      tree.working_directory.imp id directory_mem_map_changeListed }

variable (tree : FileTree) (change : Place → ByteArray → ByteArray)

@[simp] theorem working_mapContents :
    (tree.mapContents change).working = tree.working := rfl

theorem mapContents_mapContents (later : Place → ByteArray → ByteArray) :
    (tree.mapContents change).mapContents later =
      tree.mapContents fun place content => later place (change place content) := by
  refine eq_of_entries_eq ?_ rfl
  simp only [mapContents, List.map_map]
  refine List.map_congr_left ?_
  rintro ⟨place, entry⟩ _
  cases entry <;> rfl

/-- Only what is done to the files of the tree matters. -/
theorem mapContents_congr {first second : Place → ByteArray → ByteArray}
    (same : ∀ place content, (place, Entry.file content) ∈ tree.entries →
      first place content = second place content) :
    tree.mapContents first = tree.mapContents second := by
  refine eq_of_entries_eq ?_ rfl
  refine List.map_congr_left ?_
  rintro ⟨place, entry⟩ member
  cases entry with
  | file content => simp [changeListed, same place content member]
  | directory => rfl
  | link target => rfl

theorem mapContents_id : tree.mapContents (fun _ content => content) = tree := by
  refine eq_of_entries_eq ?_ rfl
  refine (List.map_congr_left ?_).trans (List.map_id _)
  rintro ⟨place, entry⟩ _
  cases entry <;> rfl

/-- A change that leaves every file of the tree as it is leaves the tree as it
is. -/
theorem mapContents_eq_self
    (same : ∀ place content, (place, Entry.file content) ∈ tree.entries →
      change place content = content) :
    tree.mapContents change = tree :=
  (tree.mapContents_congr same).trans tree.mapContents_id

theorem overwrite_eq_mapContents (place : Place) (content : ByteArray) :
    tree.overwrite place content =
      tree.mapContents fun listed old => if listed = place then content else old := by
  refine eq_of_entries_eq ?_ rfl
  refine List.map_congr_left ?_
  rintro ⟨listed, entry⟩ _
  cases entry <;> rfl

/-! ## Entries -/

private theorem lookup_map_changeListed (entries : List (Place × Entry)) (place : Place) :
    (entries.map (changeListed change)).lookup place =
      (entries.lookup place).map (Entry.mapContent (change place)) := by
  induction entries with
  | nil => rfl
  | cons listed entries induction =>
      rw [List.map_cons, List.lookup_cons, List.lookup_cons, induction]
      simp only [changeListed]
      split
      · rename_i same
        obtain rfl : place = listed.1 := by simpa using same
        rfl
      · rfl

theorem entryAt?_mapContents (place : Place) :
    (tree.mapContents change).entryAt? place =
      (tree.entryAt? place).map (Entry.mapContent (change place)) := by
  cases place with
  | nil => rfl
  | cons name holder => exact lookup_map_changeListed change tree.entries (name :: holder)

@[simp] theorem isDirectoryAt_mapContents (place : Place) :
    (tree.mapContents change).isDirectoryAt place = tree.isDirectoryAt place := by
  apply Bool.eq_iff_iff.mpr
  rw [isDirectoryAt_iff, isDirectoryAt_iff, entryAt?_mapContents]
  simp

theorem children_mapContents (place : Place) :
    (tree.mapContents change).children place =
      (tree.children place).map fun (name, entry) =>
        (name, entry.mapContent (change (name :: place))) := by
  rw [children, children, mapContents, List.filterMap_map, List.map_filterMap]
  refine congrArg (tree.entries.filterMap ·) (funext ?_)
  rintro ⟨listed, entry⟩
  cases listed with
  | nil => rfl
  | cons name holder =>
      by_cases here : holder = place
      · subst here
        simp [changeListed]
      · simp [changeListed, here]

/-! ## Lookups -/

private theorem advance_mapContents (purpose : Purpose)
    (follow : Place → Path → List Step → Lookup) (here : Place) (steps : List Step) :
    (tree.mapContents change).advance purpose follow here steps =
      tree.advance purpose follow here steps := by
  induction steps generalizing here with
  | nil => rfl
  | cons step rest induction =>
      cases step with
      | stay => simp only [advance, isDirectoryAt_mapContents, induction]
      | close => simp only [advance, isDirectoryAt_mapContents, induction]
      | up => simp only [advance, isDirectoryAt_mapContents, induction]
      | overlong => simp only [advance, isDirectoryAt_mapContents]
      | enter name =>
          simp only [advance, isDirectoryAt_mapContents, entryAt?_mapContents]
          cases tree.entryAt? (name :: here) with
          | none => rfl
          | some entry => cases entry <;> simp [induction]

theorem walk_mapContents (purpose : Purpose) (links : Nat) (here : Place)
    (steps : List Step) :
    (tree.mapContents change).walk purpose links here steps =
      tree.walk purpose links here steps := by
  induction links generalizing here steps with
  | zero => exact advance_mapContents tree change purpose _ here steps
  | succ links induction =>
      rw [walk, walk, advance_mapContents]
      simp only [induction]

@[simp] theorem lookup_mapContents (purpose : Purpose) (path : Path) :
    (tree.mapContents change).lookup purpose path = tree.lookup purpose path := by
  simp only [lookup, walk_mapContents, startOf, working_mapContents]

@[simp] theorem placeOf?_mapContents (path : Path) :
    (tree.mapContents change).placeOf? path = tree.placeOf? path := by
  simp only [placeOf?, lookup_mapContents]

@[simp] theorem leadsSomewhere_mapContents (path : Path) :
    (tree.mapContents change).leadsSomewhere path = tree.leadsSomewhere path := by
  simp only [leadsSomewhere, placeOf?_mapContents]

@[simp] theorem leadsToDirectory_mapContents (path : Path) :
    (tree.mapContents change).leadsToDirectory path = tree.leadsToDirectory path := by
  simp only [leadsToDirectory, placeOf?_mapContents, isDirectoryAt_mapContents]

@[simp] theorem directoryOf_mapContents (path : Path) :
    (tree.mapContents change).directoryOf path = tree.directoryOf path := by
  simp only [directoryOf, lookup_mapContents, isDirectoryAt_mapContents]

/-! ## Scans -/

theorem notesBelow_mapContents (path : Path) (place : Place) :
    (tree.mapContents change).notesBelow path place = tree.notesBelow path place := by
  induction path, place using FileTree.notesBelow.induct tree with
  | case1 path place tooLong =>
      rw [notesBelow, notesBelow, if_pos tooLong, if_pos tooLong]
  | case2 path place fits induction =>
      have fits : path.bytes.length ≤ pathLimit := Nat.le_of_not_lt fits
      rw [notesBelow_eq_gather_map _ place fits, notesBelow_eq_gather_map _ place fits,
        children_mapContents, List.map_map]
      refine congrArg gather (List.map_congr_left ?_)
      rintro ⟨name, entry⟩ member
      cases entry with
      | directory => exact induction name member
      | file content => simp
      | link target => simp

@[simp] theorem scanNotes_mapContents (root : Path) :
    (tree.mapContents change).scanNotes root = tree.scanNotes root := by
  simp only [scanNotes, leadsSomewhere_mapContents, directoryOf_mapContents,
    notesBelow_mapContents]

end FileTree

end TightLists
