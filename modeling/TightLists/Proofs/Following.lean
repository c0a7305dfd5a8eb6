import TightLists.FileTree.Operations

/-!
# Where a path leads

`FileTree.Leads` relates the place where steps begin to the place where they end,
with all links followed.  `walk_use_eq_found_iff` says that this is what a walk
finds.  From it follows what an operation can rely on when a path leads
somewhere: the directories on the way are there, no entry can be made at the
path, and if it leads to a file, writing to it reaches that file.
-/

namespace TightLists

namespace FileTree

/-- Where one step leads from a directory, unless it meets a link. -/
def next? (tree : FileTree) (here : Place) : Step → Option Place
  | .stay | .close => some here
  | .up => some here.tail
  | .enter name =>
      match tree.entryAt? (name :: here) with
      | none | some (.link _) => none
      | some _ => some (name :: here)
  | .overlong => none

/-- `tree.Leads links here steps there`: the steps lead from `here` to `there`,
through at most so many links. -/
inductive Leads (tree : FileTree) : Nat → Place → List Step → Place → Prop where
  | done {links : Nat} {here : Place} : Leads tree links here [] here
  | step {links : Nat} {here next there : Place} {step : Step} {rest : List Step} :
      tree.isDirectoryAt here = true → tree.next? here step = some next →
      Leads tree links next rest there →
      Leads tree links here (step :: rest) there
  | follow {links : Nat} {here there : Place} {name : Name} {target : Path}
      {steps rest : List Step} :
      tree.isDirectoryAt here = true →
      tree.entryAt? (name :: here) = some (.link target) →
      target.steps? = some steps →
      Leads tree links (if target.isAbsolute then [] else here) (steps ++ rest) there →
      Leads tree (links + 1) here (.enter name :: rest) there

/-! ## Places of directories -/

theorem entryAt?_of_mem_entries {tree : FileTree} {place : Place} {entry : Entry}
    (member : (place, entry) ∈ tree.entries) : tree.entryAt? place = some entry := by
  obtain ⟨name, holder, rfl, -⟩ := tree.held place entry member
  obtain ⟨before, after, split⟩ := List.append_of_mem member
  have distinct := tree.distinct
  rw [split, List.map_append, List.nodup_append] at distinct
  refine List.lookup_eq_some_iff.mpr ⟨before, after, split, ?_⟩
  intro listed listedBefore
  have different : listed.1 ≠ name :: holder :=
    distinct.2.2 listed.1 (List.mem_map_of_mem listedBefore) (name :: holder) (by simp)
  simpa using different.symm

theorem isDirectoryAt_tail {tree : FileTree} {place : Place}
    (directory : tree.isDirectoryAt place = true) :
    tree.isDirectoryAt place.tail = true := by
  rcases mem_entries_of_isDirectoryAt directory with rfl | member
  · rfl
  · obtain ⟨name, holder, rfl, root | holderMember⟩ := tree.held place .directory member
    · rw [List.tail_cons, root]
      rfl
    · exact isDirectoryAt_iff.mpr (entryAt?_of_mem_entries holderMember)

/-- A step that enters nothing stays among directories. -/
theorem isDirectoryAt_of_next? {tree : FileTree} {here next : Place} {step : Step}
    (directory : tree.isDirectoryAt here = true)
    (leads : tree.next? here step = some next) (enters : ∀ name, step ≠ .enter name) :
    tree.isDirectoryAt next = true := by
  cases step with
  | stay => exact Option.some.inj leads ▸ directory
  | close => exact Option.some.inj leads ▸ directory
  | up => exact Option.some.inj leads ▸ isDirectoryAt_tail directory
  | enter name => exact absurd rfl (enters name)
  | overlong => cases leads

namespace Leads

variable {tree : FileTree} {links : Nat} {here there : Place}

/-- Steps may be cut in two: the first ones lead somewhere, and the others lead on
from there. -/
theorem exists_of_append {first second : List Step}
    (leads : tree.Leads links here (first ++ second) there) :
    ∃ middle remaining, tree.Leads links here first middle ∧
      tree.Leads remaining middle second there := by
  generalize whole : first ++ second = steps at leads
  induction leads generalizing first with
  | @done links here =>
      obtain ⟨rfl, rfl⟩ := List.append_eq_nil_iff.mp whole
      exact ⟨here, links, .done, .done⟩
  | @step links here next there step rest directory taken tail induction =>
      cases first with
      | nil =>
          obtain rfl : second = step :: rest := whole
          exact ⟨here, links, .done, .step directory taken tail⟩
      | cons head first =>
          obtain ⟨rfl, rfl⟩ := List.cons.inj whole
          obtain ⟨middle, remaining, leads, leadsOn⟩ := induction rfl
          exact ⟨middle, remaining, .step directory taken leads, leadsOn⟩
  | @follow links here there name target steps rest directory found read tail induction =>
      cases first with
      | nil =>
          obtain rfl : second = .enter name :: rest := whole
          exact ⟨here, links + 1, .done, .follow directory found read tail⟩
      | cons head first =>
          obtain ⟨rfl, rfl⟩ := List.cons.inj whole
          obtain ⟨middle, remaining, leads, leadsOn⟩ :=
            induction (List.append_assoc steps first second)
          exact ⟨middle, remaining, .follow directory found read leads, leadsOn⟩

theorem isDirectoryAt_of_ne_nil {steps : List Step}
    (leads : tree.Leads links here steps there) (remain : steps ≠ []) :
    tree.isDirectoryAt here = true := by
  cases leads with
  | done => exact absurd rfl remain
  | step directory taken tail => exact directory
  | follow directory found read tail => exact directory

theorem isDirectoryAt_of_last {front : List Step} {last : Step}
    (leads : tree.Leads links here (front ++ [last]) there)
    (enters : ∀ name, last ≠ .enter name) : tree.isDirectoryAt there = true := by
  obtain ⟨middle, remaining, -, leadsOn⟩ := leads.exists_of_append
  cases leadsOn with
  | step directory taken tail =>
      cases tail
      exact isDirectoryAt_of_next? directory taken enters
  | @follow _ _ _ name => exact absurd rfl (enters name)

/-- No steps end at a link: where they began at a directory or a file, they end at one. -/
theorem isDirectoryAt_or_exists_file {steps : List Step}
    (leads : tree.Leads links here steps there)
    (stands : tree.isDirectoryAt here = true ∨
      ∃ content, tree.entryAt? here = some (.file content)) :
    tree.isDirectoryAt there = true ∨
      ∃ content, tree.entryAt? there = some (.file content) := by
  induction leads with
  | done => exact stands
  | @step links here next there step rest directory taken tail induction =>
      apply induction
      cases step with
      | enter name =>
          simp only [next?] at taken
          split at taken
          · cases taken
          · cases taken
          · rename_i entry notLink found
            obtain rfl := Option.some.inj taken
            cases entry with
            | directory => exact .inl (isDirectoryAt_iff.mpr found)
            | file content => exact .inr ⟨content, found⟩
            | link target => exact absurd rfl (notLink target)
      | stay => exact .inl (isDirectoryAt_of_next? directory taken (by simp))
      | close => exact .inl (isDirectoryAt_of_next? directory taken (by simp))
      | up => exact .inl (isDirectoryAt_of_next? directory taken (by simp))
      | overlong => cases taken
  | follow directory found read tail induction =>
      apply induction
      left
      split
      · rfl
      · exact directory

end Leads

/-! ## Walks -/

/-- What a walk does about a link it meets. -/
def follow (tree : FileTree) (purpose : Purpose) :
    (links : Nat) → Place → Path → List Step → Lookup
  | 0, _, _, _ => .failed .tooManyLinks
  | links + 1, here, target, rest =>
      match target.steps? with
      | none => .failed .zeroByte
      | some steps =>
          tree.walk purpose links (if target.isAbsolute then [] else here) (steps ++ rest)

theorem walk_eq_advance (tree : FileTree) (purpose : Purpose) (links : Nat) :
    tree.walk purpose links = tree.advance purpose (tree.follow purpose links) := by
  cases links <;> rfl

variable {tree : FileTree} {purpose : Purpose} {links : Nat} {here there : Place}

/-- A walk takes the steps that meet no link one by one.  Only a walk that is to
write minds a slash at the end. -/
theorem walk_cons_of_next? {next : Place} {step : Step} {rest : List Step}
    (directory : tree.isDirectoryAt here = true)
    (taken : tree.next? here step = some next)
    (unclosed : ¬(purpose = .write ∧ rest = [.close])) :
    tree.walk purpose links here (step :: rest) = tree.walk purpose links next rest := by
  rw [walk_eq_advance]
  cases step with
  | stay => simp_all [advance, next?]
  | close => simp_all [advance, next?]
  | up => simp_all [advance, next?]
  | overlong => cases taken
  | enter name =>
      simp only [next?] at taken
      simp only [advance, directory, if_true, if_neg unclosed]
      cases found : tree.entryAt? (name :: here) with
      | none =>
          rw [found] at taken
          cases taken
      | some entry =>
          rw [found] at taken
          cases entry with
          | directory =>
              cases taken
              rfl
          | file content =>
              cases taken
              rfl
          | link target => cases taken

theorem walk_cons_of_link {name : Name} {target : Path} {steps rest : List Step}
    (directory : tree.isDirectoryAt here = true)
    (found : tree.entryAt? (name :: here) = some (.link target))
    (read : target.steps? = some steps)
    (unclosed : ¬(purpose = .write ∧ rest = [.close]))
    (inside : ¬(purpose = .entry ∧ rest = [])) :
    tree.walk purpose (links + 1) here (.enter name :: rest) =
      tree.walk purpose links (if target.isAbsolute then [] else here) (steps ++ rest) := by
  rw [walk_eq_advance]
  simp only [advance, directory, if_true, if_neg unclosed, found, if_neg inside, follow,
    read]

/-- `tree.Walks purpose links here steps answer`: the ways that a walk can go, and what it
answers at the end of each.  When a walk fails is left open. -/
inductive Walks (tree : FileTree) (purpose : Purpose) :
    Nat → Place → List Step → Lookup → Prop where
  | done {links : Nat} {here : Place} : Walks tree purpose links here [] (.found here)
  | step {links : Nat} {here next : Place} {step : Step} {rest : List Step}
      {answer : Lookup} :
      tree.isDirectoryAt here = true → tree.next? here step = some next →
      Walks tree purpose links next rest answer →
      Walks tree purpose links here (step :: rest) answer
  | follow {links : Nat} {here : Place} {name : Name} {target : Path}
      {steps rest : List Step} {answer : Lookup} :
      tree.isDirectoryAt here = true →
      tree.entryAt? (name :: here) = some (.link target) →
      target.steps? = some steps →
      Walks tree purpose links (if target.isAbsolute then [] else here) (steps ++ rest)
        answer →
      Walks tree purpose (links + 1) here (.enter name :: rest) answer
  | stop {links : Nat} {here : Place} {name : Name} :
      purpose = .entry →
      Walks tree purpose links here [.enter name] (.found (name :: here))
  | gap {links : Nat} {here : Place} {name : Name} :
      tree.isDirectoryAt here = true → tree.entryAt? (name :: here) = none →
      Walks tree purpose links here [.enter name] (.vacant here name)
  | fail {links : Nat} {here : Place} {steps : List Step} {error : SystemError} :
      Walks tree purpose links here steps (.failed error)

private theorem walks_advance {followed : Place → Path → List Step → Lookup}
    (walksOn : ∀ {here : Place} {name : Name} {target : Path} {rest : List Step},
      tree.isDirectoryAt here = true →
      tree.entryAt? (name :: here) = some (.link target) →
      tree.Walks purpose links here (.enter name :: rest) (followed here target rest))
    (here : Place) (steps : List Step) :
    tree.Walks purpose links here steps (tree.advance purpose followed here steps) := by
  induction steps generalizing here with
  | nil => exact .done
  | cons step rest induction =>
      by_cases directory : tree.isDirectoryAt here = true
      · cases step with
        | stay =>
            simp only [advance, directory, if_true]
            exact .step directory rfl (induction here)
        | close =>
            simp only [advance, directory, if_true]
            exact .step directory rfl (induction here)
        | up =>
            simp only [advance, directory, if_true]
            exact .step directory rfl (induction here.tail)
        | overlong =>
            simp only [advance, directory, if_true]
            exact .fail
        | enter name =>
            simp only [advance, directory, if_true]
            split
            · exact .fail
            split
            · rename_i free
              split
              · rename_i last
                rw [last]
                exact .gap directory free
              · exact .fail
            · rename_i target link
              split
              · rename_i stops
                rw [stops.2]
                exact .stop stops.1
              · exact walksOn directory link
            · rename_i entry notLink found
              refine .step directory ?_ (induction (name :: here))
              simp only [next?, found]
      · have stuck : tree.advance purpose followed here (step :: rest) =
            .failed .notDirectory := by
          cases step <;> simp [advance, directory]
        rw [stuck]
        exact .fail

theorem walks_walk (tree : FileTree) (purpose : Purpose) (links : Nat) (here : Place)
    (steps : List Step) :
    tree.Walks purpose links here steps (tree.walk purpose links here steps) := by
  induction links generalizing here steps with
  | zero => exact walks_advance (fun _ _ => .fail) here steps
  | succ links induction =>
      refine walks_advance ?_ here steps
      intro here name target rest directory link
      split
      · exact .fail
      · rename_i steps read
        exact .follow directory link read (induction _ _)

theorem leads_of_walk (followsLinks : purpose ≠ .entry) {steps : List Step}
    (found : tree.walk purpose links here steps = .found there) :
    tree.Leads links here steps there := by
  have walks := tree.walks_walk purpose links here steps
  generalize tree.walk purpose links here steps = answer at found walks
  induction walks with
  | done =>
      cases found
      exact .done
  | step directory taken tail induction => exact .step directory taken (induction found)
  | follow directory link read tail induction =>
      exact .follow directory link read (induction found)
  | stop isEntry => exact absurd isEntry followsLinks
  | gap directory free => cases found
  | fail => cases found

/-- A walk that does not stop at a link finds the place that the steps lead to.
A walk that is to write refuses a slash at the end, but no steps with one lead to a
file. -/
theorem Leads.walk_eq_found {steps : List Step}
    (leads : tree.Leads links here steps there) (followsLinks : purpose ≠ .entry)
    (writable : purpose = .write → tree.isDirectoryAt there = false) :
    tree.walk purpose links here steps = .found there := by
  induction leads with
  | done => rw [walk_eq_advance, advance]
  | @step links here next there step rest directory taken tail induction =>
      -- A slash behind this step would be the end of the way, in a directory.
      have unclosed : ¬(purpose = .write ∧ rest = [.close]) := by
        rintro ⟨writes, rfl⟩
        have last : tree.Leads links next ([] ++ [.close]) there := tail
        have closed : tree.isDirectoryAt there = true :=
          last.isDirectoryAt_of_last (by simp)
        rw [writable writes] at closed
        cases closed
      rw [walk_cons_of_next? directory taken unclosed]
      exact induction writable
  | @follow links here there name target steps rest directory found read tail induction =>
      have unclosed : ¬(purpose = .write ∧ rest = [.close]) := by
        rintro ⟨writes, rfl⟩
        have closed : tree.isDirectoryAt there = true :=
          tail.isDirectoryAt_of_last (by simp)
        rw [writable writes] at closed
        cases closed
      rw [walk_cons_of_link directory found read unclosed (by simp [followsLinks])]
      exact induction writable

theorem walk_use_eq_found_iff {steps : List Step} :
    tree.walk .use links here steps = .found there ↔
      tree.Leads links here steps there :=
  ⟨leads_of_walk (by simp), fun leads => leads.walk_eq_found (by simp) (by simp)⟩

theorem Leads.exists_walk_entry {steps : List Step}
    (leads : tree.Leads links here steps there) :
    ∃ found, tree.walk .entry links here steps = .found found := by
  induction leads with
  | @done links here => exact ⟨here, by rw [walk_eq_advance, advance]⟩
  | @step links here next there step rest directory taken tail induction =>
      rw [walk_cons_of_next? directory taken (by simp)]
      exact induction
  | @follow links here there name target steps rest directory found read tail induction =>
      by_cases last : rest = []
      · refine ⟨name :: here, ?_⟩
        simp [walk_eq_advance, advance, directory, found, last]
      · rw [walk_cons_of_link directory found read (by simp) (by simp [last])]
        exact induction

/-! ## Paths -/

theorem lookup_use_of_placeOf? {path : Path} {place : Place}
    (leads : tree.placeOf? path = some place) : tree.lookup .use path = .found place := by
  rw [placeOf?] at leads
  split at leads
  · rename_i found
    rw [found, Option.some.inj leads]
  · cases leads

theorem placeOf?_eq_some_iff {path : Path} {place : Place} :
    tree.placeOf? path = some place ↔
      path.bytes ≠ [] ∧ path.bytes.length ≤ pathLimit ∧
        ∃ steps, path.steps? = some steps ∧
          tree.Leads linkLimit (tree.startOf path) steps place := by
  constructor
  · intro leads
    have found := lookup_use_of_placeOf? leads
    rw [lookup] at found
    split at found
    · cases found
    · rename_i nonempty
      split at found
      · cases found
      · rename_i steps read
        split at found
        · cases found
        · rename_i fits
          simp only [reduceCtorEq, false_and, if_false] at found
          exact ⟨nonempty, Nat.le_of_not_lt fits, steps, read, leads_of_walk (by simp) found⟩
  · rintro ⟨nonempty, fits, steps, read, leads⟩
    have walked : tree.walk .use linkLimit (tree.startOf path) steps = .found place :=
      walk_use_eq_found_iff.mpr leads
    simp [placeOf?, lookup, nonempty, read, Nat.not_lt.mpr fits, walked]

theorem isDirectoryAt_startOf (tree : FileTree) (path : Path) :
    tree.isDirectoryAt (tree.startOf path) = true := by
  rw [startOf]
  split
  · rfl
  · rcases tree.working_directory with root | listed
    · rw [root]
      rfl
    · exact isDirectoryAt_iff.mpr (entryAt?_of_mem_entries listed)

theorem exists_file_of_placeOf? {path : Path} {place : Place}
    (leads : tree.placeOf? path = some place)
    (notDirectory : tree.leadsToDirectory path = false) :
    ∃ content, tree.entryAt? place = some (.file content) := by
  obtain ⟨-, -, steps, -, follows⟩ := placeOf?_eq_some_iff.mp leads
  simp only [leadsToDirectory, leads] at notDirectory
  rcases follows.isDirectoryAt_or_exists_file (.inl (tree.isDirectoryAt_startOf path))
    with directory | file
  · rw [directory] at notDirectory
    cases notDirectory
  · exact file

theorem lookup_write_of_placeOf? {path : Path} {place : Place}
    (leads : tree.placeOf? path = some place)
    (notDirectory : tree.isDirectoryAt place = false) :
    tree.lookup .write path = .found place := by
  obtain ⟨nonempty, fits, steps, read, leads⟩ := placeOf?_eq_some_iff.mp leads
  have walked : tree.walk .write linkLimit (tree.startOf path) steps = .found place :=
    leads.walk_eq_found (by simp) fun _ => notDirectory
  simp [lookup, nonempty, read, Nat.not_lt.mpr fits, walked]

theorem exists_lookup_entry_of_placeOf? {path : Path} {place : Place}
    (leads : tree.placeOf? path = some place) :
    ∃ found, tree.lookup .entry path = .found found := by
  obtain ⟨nonempty, fits, steps, read, leads⟩ := placeOf?_eq_some_iff.mp leads
  have entered : ∃ found, tree.walk .entry linkLimit (tree.startOf path)
      (if steps.getLast? = some .close then steps.dropLast else steps) = .found found := by
    split
    · rename_i closed
      obtain ⟨front, rfl⟩ := List.getLast?_eq_some_iff.mp closed
      obtain ⟨middle, remaining, leads, -⟩ := leads.exists_of_append
      rw [List.dropLast_concat]
      exact leads.exists_walk_entry
    · exact leads.exists_walk_entry
  simpa [lookup, nonempty, read, Nat.not_lt.mpr fits] using entered

/-! ## Operations -/

theorem readBytes_of_file {path : Path} {place : Place} {content : ByteArray}
    (leads : tree.placeOf? path = some place)
    (file : tree.entryAt? place = some (.file content)) :
    tree.readBytes path = .ok content := by
  rw [readBytes, lookup_use_of_placeOf? leads]
  simp only [file]

theorem writeBytes_of_file {path : Path} {place : Place} {old : ByteArray}
    (leads : tree.placeOf? path = some place)
    (file : tree.entryAt? place = some (.file old)) (content : ByteArray) :
    tree.writeBytes path content = .ok (tree.overwrite place content) := by
  have notDirectory : tree.isDirectoryAt place = false := by
    rw [isDirectoryAt, file]
  rw [writeBytes, lookup_write_of_placeOf? leads notDirectory]
  simp only [file]

theorem makeDirectory_of_placeOf? {path : Path} {place : Place}
    (leads : tree.placeOf? path = some place) :
    tree.makeDirectory path = .error .alreadyExists := by
  obtain ⟨found, entry⟩ := exists_lookup_entry_of_placeOf? leads
  rw [makeDirectory, makeEntry, entry]

theorem makeDirectories_of_leadsToDirectory {path : Path}
    (directory : tree.leadsToDirectory path = true) :
    tree.makeDirectories path = { tree := tree, answer := .ok () } := by
  cases leads : tree.placeOf? path with
  | none => simp [leadsToDirectory, leads] at directory
  | some place =>
      rw [makeDirectories, makeFirstOf, makeDirectory_of_placeOf? leads]
      simp [settle, directory]

end FileTree

end TightLists
