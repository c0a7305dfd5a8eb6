import TightLists.Path

/-!
# File trees

A file tree lists what stands where: directories, regular files with their
bytes, and symbolic links with the path they point to.  A place is the list of
names that lead to it from the root, innermost name first, so that the tail of a
place is the directory that holds it.

The list of entries has no order that a reader may rely on.  What a tree keeps
at all times is part of its type: every place is listed once, what holds an
entry is a directory, and so is the working directory.
-/

namespace TightLists

/-- How many bytes a name has at most. -/
def nameLimit : Nat := 255

/-- Bytes that can name an entry.  The two names made of dots are taken by
directories themselves. -/
def ValidName (bytes : List UInt8) : Prop :=
  bytes ≠ [] ∧ bytes ≠ [dot] ∧ bytes ≠ [dot, dot] ∧ slash ∉ bytes ∧ 0 ∉ bytes ∧
    bytes.length ≤ nameLimit

instance (bytes : List UInt8) : Decidable (ValidName bytes) := by
  unfold ValidName
  infer_instance

structure Name where
  bytes : List UInt8
  valid : ValidName bytes
  deriving DecidableEq

/-- A place in a file tree, innermost name first; the empty list is the root. -/
abbrev Place := List Name

inductive Entry where
  | directory
  | file (content : ByteArray)
  | link (target : Path)

/-- The entries of a file system below its root, and a working directory. -/
structure FileTree where
  entries : List (Place × Entry)
  working : Place
  distinct : (entries.map Prod.fst).Nodup
  held : ∀ place entry, (place, entry) ∈ entries →
    ∃ name holder, place = name :: holder ∧
      (holder = [] ∨ (holder, Entry.directory) ∈ entries)
  working_directory : working = [] ∨ (working, Entry.directory) ∈ entries

namespace FileTree

/-- The tree with nothing in it; its root is the working directory. -/
def empty : FileTree :=
  { entries := []
    working := []
    distinct := List.nodup_nil
    held := by simp
    working_directory := .inl rfl }

/-- What stands at a place.  The root is a directory although it is not listed. -/
def entryAt? (tree : FileTree) : Place → Option Entry
  | [] => some .directory
  | name :: holder => tree.entries.lookup (name :: holder)

def isDirectoryAt (tree : FileTree) (place : Place) : Bool :=
  match tree.entryAt? place with
  | some .directory => true
  | _ => false

theorem isDirectoryAt_iff {tree : FileTree} {place : Place} :
    tree.isDirectoryAt place = true ↔ tree.entryAt? place = some .directory := by
  rw [isDirectoryAt]
  split
  · simp_all
  · simp_all

/-- What a directory holds, in the order of the listing. -/
def children (tree : FileTree) (place : Place) : List (Name × Entry) :=
  tree.entries.filterMap fun (listed, entry) =>
    match listed with
    | name :: holder => if holder = place then some (name, entry) else none
    | [] => none

theorem mem_entries_of_mem_children
    {tree : FileTree} {place : Place} {name : Name} {entry : Entry}
    (child : (name, entry) ∈ tree.children place) :
    (name :: place, entry) ∈ tree.entries := by
  obtain ⟨⟨listed, found⟩, listedMember, equality⟩ := List.mem_filterMap.mp child
  cases listed with
  | nil => simp at equality
  | cons listedName holder =>
      simp only [Option.ite_none_right_eq_some, Option.some.injEq,
        Prod.mk.injEq] at equality
      obtain ⟨rfl, rfl, rfl⟩ := equality
      exact listedMember

theorem mem_entries_of_isDirectoryAt
    {tree : FileTree} {place : Place}
    (directory : tree.isDirectoryAt place = true) :
    place = [] ∨ (place, Entry.directory) ∈ tree.entries := by
  cases place with
  | nil => exact .inl rfl
  | cons name holder =>
      right
      have found : tree.entries.lookup (name :: holder) = some .directory :=
        isDirectoryAt_iff.mp directory
      obtain ⟨before, after, split, -⟩ := List.lookup_eq_some_iff.mp found
      rw [split]
      simp

/-- How deep the deepest entry lies below the root. -/
def height (tree : FileTree) : Nat :=
  (tree.entries.map fun listed => listed.1.length).foldr max 0

theorem length_le_foldr_max {lengths : List Nat} {length : Nat}
    (member : length ∈ lengths) : length ≤ lengths.foldr max 0 := by
  induction lengths with
  | nil => simp at member
  | cons first rest induction =>
      rcases List.mem_cons.mp member with rfl | inRest
      · exact Nat.le_max_left _ _
      · exact Nat.le_trans (induction inRest) (Nat.le_max_right _ _)

theorem length_le_height
    {tree : FileTree} {place : Place} {entry : Entry}
    (listed : (place, entry) ∈ tree.entries) :
    place.length ≤ tree.height :=
  length_le_foldr_max (List.mem_map.mpr ⟨_, listed, rfl⟩)

/-! ## Changing a tree -/

/-- The listed entry with new content, if it is the file at the given place. -/
def overwritten (place : Place) (content : ByteArray) :
    Place × Entry → Place × Entry
  | (listed, .file old) => (listed, .file (if listed = place then content else old))
  | other => other

theorem overwritten_fst (place : Place) (content : ByteArray)
    (listed : Place × Entry) :
    (overwritten place content listed).1 = listed.1 := by
  rcases listed with ⟨_, _ | _ | _⟩ <;> rfl

/-- Only files are overwritten, so the listed directories stay the same. -/
theorem directory_mem_map_overwritten
    {place holder : Place} {content : ByteArray} {entries : List (Place × Entry)}
    (member : (holder, Entry.directory) ∈ entries) :
    (holder, Entry.directory) ∈ entries.map (overwritten place content) :=
  List.mem_map.mpr ⟨_, member, rfl⟩

/-- Gives the file at a place another content.  Where no file stands, nothing
changes. -/
def overwrite (tree : FileTree) (place : Place) (content : ByteArray) : FileTree :=
  { entries := tree.entries.map (overwritten place content)
    working := tree.working
    distinct := by
      have same :
          (tree.entries.map (overwritten place content)).map Prod.fst =
            tree.entries.map Prod.fst := by
        rw [List.map_map]
        exact List.map_congr_left fun listed _ => overwritten_fst place content listed
      exact same ▸ tree.distinct
    held := by
      intro changedPlace changedEntry member
      obtain ⟨⟨listed, entry⟩, listedMember, equality⟩ := List.mem_map.mp member
      have samePlace : listed = changedPlace :=
        (overwritten_fst place content (listed, entry)).symm.trans
          (congrArg Prod.fst equality)
      obtain ⟨name, holder, split, directory⟩ :=
        tree.held listed entry listedMember
      refine ⟨name, holder, samePlace ▸ split, ?_⟩
      exact directory.imp id directory_mem_map_overwritten
    working_directory :=
      tree.working_directory.imp id directory_mem_map_overwritten }

/-- Adds an entry to a directory, unless the directory is missing or already
holds that name. -/
def add (tree : FileTree) (holder : Place) (name : Name) (entry : Entry) :
    FileTree :=
  if room : tree.isDirectoryAt holder = true ∧
      tree.entryAt? (name :: holder) = none then
    { entries := tree.entries ++ [(name :: holder, entry)]
      working := tree.working
      distinct := by
        have fresh : name :: holder ∉ tree.entries.map Prod.fst := by
          intro member
          obtain ⟨listed, listedMember, equality⟩ := List.mem_map.mp member
          have absent := List.lookup_eq_none_iff.mp room.2 listed listedMember
          simp [equality] at absent
        rw [List.map_append, List.nodup_append]
        refine ⟨tree.distinct, by simp, ?_⟩
        intro listed listedMember added addedMember equality
        have : added = name :: holder := by simpa using addedMember
        exact fresh (this ▸ equality ▸ listedMember)
      held := by
        intro place placed member
        rcases List.mem_append.mp member with old | new
        · obtain ⟨oldName, oldHolder, split, directory⟩ := tree.held place placed old
          exact ⟨oldName, oldHolder, split,
            directory.imp id (List.mem_append_left _)⟩
        · have split : place = name :: holder := by
            simpa using congrArg Prod.fst (List.mem_singleton.mp new)
          exact ⟨name, holder, split,
            (mem_entries_of_isDirectoryAt room.1).imp id (List.mem_append_left _)⟩
      working_directory := tree.working_directory.imp id (List.mem_append_left _) }
  else tree

def enter (tree : FileTree) (place : Place) : FileTree :=
  if directory : tree.isDirectoryAt place = true then
    { tree with
      working := place
      working_directory := mem_entries_of_isDirectoryAt directory }
  else tree

end FileTree

end TightLists
