import TightLists.Proofs.Contents
import TightLists.Proofs.Following

/-!
# A written file is found where it was written

A walk that is to write ends at a file or at a free name in a directory, which then
takes a new file.  `FileTree.LeadsToGap` relates the steps to that free name, as
`FileTree.Leads` relates them to an entry.  In a tree that has grown, the steps before
the free name lead as they did, and once the name is taken they lead to it.  So whatever
way a file was written, through links as well, the same path leads to it afterwards.
-/

namespace TightLists

namespace FileTree

variable {tree wider : FileTree} {holder : Place} {name : Name} {entry : Entry}

/-! ## Trees that have grown -/

/-- Everything that stands in a tree stands in the other one too, unchanged. -/
def GrowsInto (tree wider : FileTree) : Prop :=
  ∀ place entry, tree.entryAt? place = some entry → wider.entryAt? place = some entry

theorem GrowsInto.isDirectoryAt (grows : tree.GrowsInto wider) {place : Place}
    (directory : tree.isDirectoryAt place = true) : wider.isDirectoryAt place = true :=
  isDirectoryAt_iff.mpr (grows place .directory (isDirectoryAt_iff.mp directory))

theorem GrowsInto.next? (grows : tree.GrowsInto wider) {here next : Place} {step : Step}
    (taken : tree.next? here step = some next) : wider.next? here step = some next := by
  cases step with
  | stay => exact taken
  | close => exact taken
  | up => exact taken
  | overlong => cases taken
  | enter name =>
      simp only [FileTree.next?] at taken ⊢
      split at taken
      · cases taken
      · cases taken
      · rename_i entry notLink found
        rw [grows (name :: here) entry found]
        cases entry with
        | directory => exact taken
        | file content => exact taken
        | link target => exact absurd rfl (notLink target)

theorem entryAt?_add (directory : tree.isDirectoryAt holder = true)
    (free : tree.entryAt? (name :: holder) = none) (place : Place) :
    (tree.add holder name entry).entryAt? place =
      if place = name :: holder then some entry else tree.entryAt? place := by
  rw [add, dif_pos ⟨directory, free⟩]
  cases place with
  | nil => rfl
  | cons first rest =>
      simp only [entryAt?, List.lookup_append]
      split
      · rename_i same
        rw [same]
        have absent : tree.entries.lookup (name :: holder) = none := free
        simp [absent]
      · rename_i different
        have other : List.lookup (first :: rest) [(name :: holder, entry)] = none := by
          rw [List.lookup_eq_none_iff]
          simpa using different
        rw [other, Option.or_none]

theorem growsInto_add (directory : tree.isDirectoryAt holder = true)
    (free : tree.entryAt? (name :: holder) = none) :
    tree.GrowsInto (tree.add holder name entry) := by
  intro place listed found
  rw [entryAt?_add directory free]
  split
  · rename_i same
    rw [same, free] at found
    cases found
  · exact found

theorem working_add : (tree.add holder name entry).working = tree.working := by
  rw [add]
  split
  · rfl
  · rfl

/-! ## Ways to a free name -/

/-- `tree.LeadsToGap links here steps holder name`: the steps lead from `here` to
`holder`, a directory, and from there to a name that is free in it, through at most so
many links. -/
inductive LeadsToGap (tree : FileTree) :
    Nat → Place → List Step → Place → Name → Prop where
  | gap {links : Nat} {holder : Place} {name : Name} :
      tree.isDirectoryAt holder = true → tree.entryAt? (name :: holder) = none →
      LeadsToGap tree links holder [.enter name] holder name
  | step {links : Nat} {here next holder : Place} {name : Name} {step : Step}
      {rest : List Step} :
      tree.isDirectoryAt here = true → tree.next? here step = some next →
      LeadsToGap tree links next rest holder name →
      LeadsToGap tree links here (step :: rest) holder name
  | follow {links : Nat} {here holder : Place} {entered name : Name} {target : Path}
      {steps rest : List Step} :
      tree.isDirectoryAt here = true →
      tree.entryAt? (entered :: here) = some (.link target) →
      target.steps? = some steps →
      LeadsToGap tree links (if target.isAbsolute then [] else here) (steps ++ rest)
        holder name →
      LeadsToGap tree (links + 1) here (.enter entered :: rest) holder name

theorem LeadsToGap.isFree {links : Nat} {here : Place} {steps : List Step}
    (leads : tree.LeadsToGap links here steps holder name) :
    tree.isDirectoryAt holder = true ∧ tree.entryAt? (name :: holder) = none := by
  induction leads with
  | gap directory free => exact ⟨directory, free⟩
  | step directory taken tail induction => exact induction
  | follow directory found read tail induction => exact induction

/-- When the free name has been taken, the steps lead to what stands there now. -/
theorem LeadsToGap.leads_of_filled {links : Nat} {here : Place} {steps : List Step}
    (leads : tree.LeadsToGap links here steps holder name)
    (grows : tree.GrowsInto wider)
    (filled : wider.entryAt? (name :: holder) = some entry)
    (notLink : ∀ target, entry ≠ .link target) :
    wider.Leads links here steps (name :: holder) := by
  induction leads with
  | gap directory free =>
      refine .step (grows.isDirectoryAt directory) ?_ .done
      simp only [next?, filled]
  | step directory taken tail induction =>
      exact .step (grows.isDirectoryAt directory) (grows.next? taken) (induction filled)
  | follow directory found read tail induction =>
      exact .follow (grows.isDirectoryAt directory) (grows _ _ found) read
        (induction filled)

variable {purpose : Purpose} {links : Nat} {here : Place}

theorem leadsToGap_of_walk {steps : List Step}
    (vacant : tree.walk purpose links here steps = .vacant holder name) :
    tree.LeadsToGap links here steps holder name := by
  have walks := tree.walks_walk purpose links here steps
  generalize tree.walk purpose links here steps = answer at vacant walks
  induction walks with
  | done => cases vacant
  | step directory taken tail induction => exact .step directory taken (induction vacant)
  | follow directory link read tail induction =>
      exact .follow directory link read (induction vacant)
  | stop isEntry => cases vacant
  | gap directory free =>
      cases vacant
      exact .gap directory free
  | fail => cases vacant

/-! ## Paths -/

/-- A path that is looked up to be written to is walked to the end. -/
theorem exists_of_lookup_write {path : Path} {answer : Lookup}
    (looked : tree.lookup .write path = answer) (reached : ∀ error, answer ≠ .failed error) :
    path.bytes ≠ [] ∧ path.bytes.length ≤ pathLimit ∧
      ∃ steps, path.steps? = some steps ∧
        tree.walk .write linkLimit (tree.startOf path) steps = answer := by
  rw [lookup] at looked
  split at looked
  · exact absurd looked.symm (reached _)
  · rename_i nonempty
    split at looked
    · exact absurd looked.symm (reached _)
    · rename_i steps read
      split at looked
      · exact absurd looked.symm (reached _)
      · rename_i fits
        simp only [reduceCtorEq, false_and, if_false] at looked
        exact ⟨nonempty, Nat.le_of_not_lt fits, steps, read, looked⟩

theorem placeOf?_of_lookup_write_found {path : Path} {place : Place}
    (found : tree.lookup .write path = .found place) : tree.placeOf? path = some place := by
  obtain ⟨nonempty, fits, steps, read, walked⟩ := exists_of_lookup_write found (by simp)
  exact placeOf?_eq_some_iff.mpr
    ⟨nonempty, fits, steps, read, leads_of_walk (by simp) walked⟩

/-- A free name that a path leads to can be taken, and then the path leads there. -/
theorem placeOf?_add_of_lookup_write_vacant {path : Path} {content : ByteArray}
    (vacant : tree.lookup .write path = .vacant holder name) :
    let after := tree.add holder name (.file content)
    after.placeOf? path = some (name :: holder) ∧
      after.entryAt? (name :: holder) = some (.file content) := by
  obtain ⟨nonempty, fits, steps, read, walked⟩ := exists_of_lookup_write vacant (by simp)
  have leads := leadsToGap_of_walk walked
  obtain ⟨directory, free⟩ := leads.isFree
  have filled : (tree.add holder name (.file content)).entryAt? (name :: holder) =
      some (.file content) := by
    rw [entryAt?_add directory free, if_pos rfl]
  have start : (tree.add holder name (.file content)).startOf path =
      tree.startOf path := by
    rw [startOf, startOf, working_add]
  refine ⟨placeOf?_eq_some_iff.mpr ⟨nonempty, fits, steps, read, ?_⟩, filled⟩
  rw [start]
  exact leads.leads_of_filled (growsInto_add directory free) filled (by simp)

/-! ## Writing -/

variable {after : FileTree} {path : Path}

theorem exists_of_writeBytes {content : ByteArray}
    (written : tree.writeBytes path content = .ok after) :
    ∃ place, after.placeOf? path = some place ∧
      after.entryAt? place = some (.file content) := by
  rw [writeBytes] at written
  split at written
  · rename_i place found
    split at written
    · rename_i old file
      cases written
      refine ⟨place, ?_, ?_⟩
      · rw [overwrite_eq_mapContents, placeOf?_mapContents]
        exact placeOf?_of_lookup_write_found found
      · rw [overwrite_eq_mapContents, entryAt?_mapContents, file]
        simp
    · cases written
    · cases written
  · rename_i holder name vacant
    cases written
    exact ⟨name :: holder, placeOf?_add_of_lookup_write_vacant vacant⟩
  · cases written

theorem readText_of_writeText {text : Text}
    (written : tree.writeText path text = .ok after) : after.readText path = .ok text := by
  obtain ⟨place, leads, file⟩ := exists_of_writeBytes written
  rw [readText, readBytes_of_file leads file]
  simp only [Text.decode?_encode]

end FileTree

end TightLists
