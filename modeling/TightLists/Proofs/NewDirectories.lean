import TightLists.Proofs.WrittenFiles

/-!
# What saving a file changes

Before a file is saved, the directories that are to hold it are made.  They are all that
is new when the file cannot be written (`OnlyAddsDirectories`).  When it can, the only
other difference is at the place that its path leads to (`OnlyWrites`), and that is the
place where the path led before, if it led anywhere.
-/

namespace TightLists

namespace FileTree

variable {tree middle wider after : FileTree} {holder place : Place} {name : Name}
  {path : Path} {content : ByteArray}

/-- What stood at a place stands there still; where nothing stood there may be a
directory now. -/
def KeepsOrMakes (tree after : FileTree) (place : Place) : Prop :=
  after.entryAt? place = tree.entryAt? place ∨
    tree.entryAt? place = none ∧ after.entryAt? place = some .directory

/-- Nothing but new directories tells the two trees apart. -/
structure OnlyAddsDirectories (tree after : FileTree) : Prop where
  working : after.working = tree.working
  places : ∀ place, tree.KeepsOrMakes after place

/-- A file has been written, over another one or where nothing stood, and nothing else but
new directories tells the two trees apart. -/
structure OnlyWrites (tree : FileTree) (place : Place) (content : ByteArray)
    (after : FileTree) : Prop where
  working : after.working = tree.working
  before : tree.entryAt? place = none ∨ ∃ old, tree.entryAt? place = some (.file old)
  written : after.entryAt? place = some (.file content)
  others : ∀ other, other ≠ place → tree.KeepsOrMakes after other

namespace KeepsOrMakes

theorem of_entry (keeps : tree.KeepsOrMakes after place) {entry : Entry}
    (found : tree.entryAt? place = some entry) : after.entryAt? place = some entry := by
  rcases keeps with same | ⟨absent, -⟩
  · rwa [same]
  · rw [absent] at found
    cases found

theorem trans (first : tree.KeepsOrMakes middle place)
    (second : middle.KeepsOrMakes after place) : tree.KeepsOrMakes after place := by
  rcases second with same | ⟨absent, made⟩
  · rw [KeepsOrMakes, same]
    exact first
  · rcases first with same | ⟨-, found⟩
    · exact .inr ⟨same.symm.trans absent, made⟩
    · rw [absent] at found
      cases found

end KeepsOrMakes

/-! ## Paths in a tree that has grown -/

theorem GrowsInto.leads (grows : tree.GrowsInto wider) {links : Nat} {here there : Place}
    {steps : List Step} (leads : tree.Leads links here steps there) :
    wider.Leads links here steps there := by
  induction leads with
  | done => exact .done
  | step directory taken tail induction =>
      exact .step (grows.isDirectoryAt directory) (grows.next? taken) induction
  | follow directory found read tail induction =>
      exact .follow (grows.isDirectoryAt directory) (grows _ _ found) read induction

theorem GrowsInto.placeOf? (grows : tree.GrowsInto wider)
    (working : wider.working = tree.working)
    (leads : tree.placeOf? path = some place) : wider.placeOf? path = some place := by
  obtain ⟨nonempty, fits, steps, read, leads⟩ := placeOf?_eq_some_iff.mp leads
  apply placeOf?_eq_some_iff.mpr
  refine ⟨nonempty, fits, steps, read, ?_⟩
  rw [startOf, working]
  exact grows.leads leads

/-! ## Directories -/

namespace OnlyAddsDirectories

theorem refl (tree : FileTree) : tree.OnlyAddsDirectories tree := by
  constructor
  · rfl
  · intro place
    exact .inl rfl

theorem trans (first : tree.OnlyAddsDirectories middle)
    (second : middle.OnlyAddsDirectories after) : tree.OnlyAddsDirectories after := by
  constructor
  · exact second.working.trans first.working
  · intro place
    exact (first.places place).trans (second.places place)

theorem growsInto (adds : tree.OnlyAddsDirectories after) : tree.GrowsInto after := by
  intro place entry found
  exact (adds.places place).of_entry found

end OnlyAddsDirectories

theorem onlyAddsDirectories_add (tree : FileTree) (holder : Place) (name : Name) :
    tree.OnlyAddsDirectories (tree.add holder name .directory) := by
  by_cases room : tree.isDirectoryAt holder = true ∧ tree.entryAt? (name :: holder) = none
  · constructor
    · exact working_add
    · intro place
      rw [KeepsOrMakes, entryAt?_add room.1 room.2]
      by_cases here : place = name :: holder
      · subst here
        exact .inr ⟨room.2, if_pos rfl⟩
      · exact .inl (if_neg here)
  · rw [add, dif_neg room]
    exact .refl tree

theorem onlyAddsDirectories_settle (tree : FileTree) (path : Path) :
    tree.OnlyAddsDirectories (tree.settle path (tree.makeDirectory path)).tree := by
  rw [makeDirectory, makeEntry]
  split
  · exact .refl tree
  · exact tree.onlyAddsDirectories_add _ _
  · exact .refl tree

/-- When one of the directories cannot be made, those made before it are all that is
new. -/
theorem onlyAddsDirectories_makeFirstOf (tree : FileTree) (paths : List Path) :
    tree.OnlyAddsDirectories (tree.makeFirstOf paths).tree := by
  induction paths with
  | nil => exact .refl tree
  | cons path holders induction =>
      rw [makeFirstOf]
      split
      · exact .refl tree
      · split
        · simp only
          split
          · exact induction.trans (onlyAddsDirectories_settle _ path)
          · exact induction
        · exact tree.onlyAddsDirectories_settle path

theorem onlyAddsDirectories_makeDirectories (tree : FileTree) (path : Path) :
    tree.OnlyAddsDirectories (tree.makeDirectories path).tree :=
  tree.onlyAddsDirectories_makeFirstOf (path :: path.parents)

/-! ## Files -/

theorem onlyWrites_overwrite {old : ByteArray}
    (file : tree.entryAt? place = some (.file old)) (content : ByteArray) :
    tree.OnlyWrites place content (tree.overwrite place content) := by
  rw [overwrite_eq_mapContents]
  constructor
  · rfl
  · exact .inr ⟨old, file⟩
  · rw [entryAt?_mapContents, file]
    simp
  · intro other different
    left
    rw [entryAt?_mapContents]
    cases tree.entryAt? other with
    | none => rfl
    | some entry => cases entry <;> simp [different]

theorem onlyWrites_add (directory : tree.isDirectoryAt holder = true)
    (free : tree.entryAt? (name :: holder) = none) (content : ByteArray) :
    tree.OnlyWrites (name :: holder) content (tree.add holder name (.file content)) := by
  constructor
  · exact working_add
  · exact .inl free
  · rw [entryAt?_add directory free, if_pos rfl]
  · intro other different
    left
    rw [entryAt?_add directory free, if_neg different]

theorem isFree_of_lookup_write_vacant
    (vacant : tree.lookup .write path = .vacant holder name) :
    tree.isDirectoryAt holder = true ∧ tree.entryAt? (name :: holder) = none := by
  obtain ⟨-, -, steps, -, walked⟩ := exists_of_lookup_write vacant (by simp)
  exact (leadsToGap_of_walk walked).isFree

/-- A file that has been written is where its path leads, and where it led before if it
led anywhere. -/
theorem exists_onlyWrites_of_writeBytes
    (written : tree.writeBytes path content = .ok after) :
    ∃ place, tree.OnlyWrites place content after ∧ after.placeOf? path = some place ∧
      ∀ earlier, tree.placeOf? path = some earlier → earlier = place := by
  rw [writeBytes] at written
  split at written
  · rename_i place found
    have leads := placeOf?_of_lookup_write_found found
    split at written
    · rename_i old file
      cases written
      refine ⟨place, onlyWrites_overwrite file content, ?_, ?_⟩
      · rwa [overwrite_eq_mapContents, placeOf?_mapContents]
      · intro earlier earlierLeads
        rw [leads] at earlierLeads
        exact (Option.some.inj earlierLeads).symm
    · cases written
    · cases written
  · rename_i holder name vacant
    cases written
    obtain ⟨directory, free⟩ := isFree_of_lookup_write_vacant vacant
    have leads : (tree.add holder name (.file content)).placeOf? path =
        some (name :: holder) := (placeOf?_add_of_lookup_write_vacant vacant).1
    have grows : tree.GrowsInto (tree.add holder name (.file content)) :=
      growsInto_add directory free
    refine ⟨name :: holder, onlyWrites_add directory free content, leads, ?_⟩
    intro earlier earlierLeads
    have stillLeads := grows.placeOf? working_add earlierLeads
    rw [leads] at stillLeads
    exact (Option.some.inj stillLeads).symm
  · cases written

/-- Directories that are made ahead of a write add nothing but themselves to what is
new. -/
theorem OnlyWrites.after_onlyAddsDirectories (writes : middle.OnlyWrites place content after)
    (adds : tree.OnlyAddsDirectories middle) : tree.OnlyWrites place content after := by
  constructor
  · exact writes.working.trans adds.working
  · rcases adds.places place with same | ⟨absent, -⟩
    · rw [← same]
      exact writes.before
    · exact .inl absent
  · exact writes.written
  · intro other different
    exact (adds.places other).trans (writes.others other different)

end FileTree

end TightLists
