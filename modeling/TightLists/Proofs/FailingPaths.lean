import TightLists.Proofs.Tasks

/-!
# Paths that fail

A batch goes on after a failure, and what it has written by then decides about no later
one: a task that fails at the beginning fails in the same way whenever its turn comes, and
it leaves the tree as it finds it.  So a path that fails adds its error, between those of
the paths before it and those of the paths behind it, and does nothing else
(`fixPaths_isolates_failure`).
-/

namespace TightLists

namespace FileTree

variable (tree : FileTree) (mode : WriteMode)

/-! ## Tasks that fail -/

/-- What has been written makes no failing task succeed, and gives it no other error. -/
theorem outcome_left_of_error {task : Except NotesError Path} {error : NotesError}
    (failed : tree.outcome task = .error error) (written : List Path) :
    (tree.left mode written).outcome task = .error error := by
  cases mode with
  | dryRun => exact failed
  | inPlace =>
      rw [left, outcome_tightenedAt, failed]
      rfl

theorem errors_runTasks_left (written : List Path) (tasks : List (Except NotesError Path)) :
    ((tree.left mode written).runTasks mode tasks).errors =
      (tree.runTasks mode tasks).errors := by
  cases mode with
  | dryRun => rfl
  | inPlace =>
      have first := tree.errors_runTasks .inPlace tasks
      have later := (tree.runTasks_inPlace written tasks).2.2.1
      exact later.trans first.symm

theorem errors_runTasks_append (first second : List (Except NotesError Path)) :
    (tree.runTasks mode (first ++ second)).errors =
      (tree.runTasks mode first).errors ++ (tree.runTasks mode second).errors := by
  rw [runTasks_append, Batch.andThen]
  simp only
  rw [tree_runTasks, errors_runTasks_left]

theorem runTasks_insert_failing {task : Except NotesError Path} {error : NotesError}
    (failed : tree.outcome task = .error error)
    (first second : List (Except NotesError Path)) :
    let without := tree.runTasks mode (first ++ second)
    let batch := tree.runTasks mode (first ++ task :: second)
    batch.tree = without.tree ∧ batch.reports = without.reports ∧
      batch.errors =
        (tree.runTasks mode first).errors ++ error :: (tree.runTasks mode second).errors := by
  intro without batch
  let written := (tree.runTasks .dryRun first).reports.map FileReport.path
  have reached : (tree.runTasks mode first).tree = tree.left mode written :=
    tree.tree_runTasks mode first
  obtain ⟨noReports, oneError, sameTree⟩ :=
    (tree.left mode written).runTask_of_outcome_error mode
      (tree.outcome_left_of_error mode failed written)
  refine ⟨?_, ?_, ?_⟩
  · simp only [batch, without, runTasks_append, runTasks, Batch.andThen, reached, sameTree]
  · simp only [batch, without, runTasks_append, runTasks, Batch.andThen, reached, sameTree,
      noReports, List.nil_append]
  · simp only [batch, runTasks_append, runTasks, Batch.andThen, reached, sameTree, oneError,
      errors_runTasks_left, List.singleton_append]

/-! ## Paths that fail -/

theorem tasks_append (first second : List Path) :
    tree.tasks (first ++ second) = tree.tasks first ++ tree.tasks second :=
  List.flatMap_append

theorem tasksOf_of_not_directory {path : Path}
    (notDirectory : tree.leadsToDirectory path = false) :
    tree.tasksOf path = [.ok path] := by
  rw [tasksOf, tree.expansion_of_not_directory notDirectory]
  rfl

/-- The two ways in which a path can fail that is no directory: it leads nowhere, or to a
file that holds no text. -/
inductive Unreadable (path : Path) : NotesError → Prop where
  | missing (leads : tree.leadsSomewhere path = false) : Unreadable path (.notFound path)
  | binary {place : Place} {content : ByteArray} (leads : tree.placeOf? path = some place)
      (file : tree.entryAt? place = some (.file content))
      (noText : Text.decode? content = none) : Unreadable path (.system path .notText)

theorem unreadable_of_not_directory {path : Path} {error : NotesError}
    (notDirectory : tree.leadsToDirectory path = false)
    (failed : tree.readNote path = .error error) : tree.Unreadable path error := by
  rw [readNote_eq] at failed
  cases leads : tree.placeOf? path with
  | none =>
      rw [leads] at failed
      obtain rfl := Except.error.inj failed
      have nowhere : tree.leadsSomewhere path = false := by
        rw [leadsSomewhere, leads]
        rfl
      exact .missing nowhere
  | some place =>
      obtain ⟨content, file⟩ := exists_file_of_placeOf? leads notDirectory
      simp only [leads, file] at failed
      cases read : Text.decode? content with
      | some text =>
          rw [read] at failed
          cases failed
      | none =>
          rw [read] at failed
          obtain rfl := Except.error.inj failed
          exact .binary leads file read

/-- A path that leads to no directory and cannot be fixed in the tree that a batch begins
with is isolated.  It leads nowhere or to a file without a text, and trying it leaves the tree
alone.  With it the batch leaves the same tree and gives the same reports as without it,
and of the errors only the one of that path is new, behind those that the paths before it
cause. -/
theorem fixPaths_isolates_failure (before after : List Path) {path : Path}
    {error : NotesError} {tried : WriteMode}
    (notDirectory : tree.leadsToDirectory path = false)
    (fails : (tree.fixFile tried path).answer = .error error) :
    let without := tree.fixPaths mode (before ++ after)
    let batch := tree.fixPaths mode (before ++ [path] ++ after)
    tree.Unreadable path error ∧ (tree.fixFile tried path).tree = tree ∧
      batch.tree = without.tree ∧ batch.reports = without.reports ∧
      without.errors =
        (tree.fixPaths mode before).errors ++ (tree.fixPaths mode after).errors ∧
      batch.errors =
        (tree.fixPaths mode before).errors ++ [error] ++
          (tree.fixPaths mode after).errors := by
  have failed : tree.outcome (.ok path) = .error error := by
    rw [answer_fixFile] at fails
    exact fails
  have unread : tree.readNote path = .error error := by
    rcases (tree.outcome_eq_error_iff).mp failed with unlisted | ⟨note, same, unread⟩
    · cases unlisted
    · obtain rfl := Except.ok.inj same
      exact unread
  have withPath : tree.tasks (before ++ [path] ++ after) =
      tree.tasks before ++ .ok path :: tree.tasks after := by
    have single : tree.tasks [path] = [.ok path] := by
      rw [tasks, List.flatMap_singleton, tree.tasksOf_of_not_directory notDirectory]
    rw [tasks_append, tasks_append, single, List.append_assoc, List.singleton_append]
  simp only [fixPaths_eq_runTasks, withPath, tasks_append]
  obtain ⟨sameTree, sameReports, errors⟩ :=
    tree.runTasks_insert_failing mode failed (tree.tasks before) (tree.tasks after)
  refine ⟨tree.unreadable_of_not_directory notDirectory unread,
    tree.tree_fixFile_of_error tried unread, sameTree, sameReports, ?_, ?_⟩
  · exact tree.errors_runTasks_append mode _ _
  · rw [errors, List.append_assoc, List.singleton_append]

/-- A file that holds no text, given between a note and a link to it, with a path that leads
nowhere at the end. -/
theorem fixPaths_isolates_failure_without_text :
    let note : Path := { bytes := [0x61] }
    let link : Path := { bytes := [0x62] }
    let binary : Path := { bytes := [0x63] }
    let missing : Path := { bytes := [0x64] }
    let tree :=
      ((empty.add [] { bytes := note.bytes, valid := by decide }
        (.file (Text.encode "- x\n\n- y".toList))).add []
          { bytes := link.bytes, valid := by decide } (.link note)).add []
            { bytes := binary.bytes, valid := by decide } (.file ⟨#[0xFF]⟩)
    let without := tree.fixPaths .inPlace [note, link, missing]
    let batch := tree.fixPaths .inPlace [note, binary, link, missing]
    tree.leadsToDirectory binary = false ∧
      (tree.fixFile .dryRun binary).answer = .error (.system binary .notText) ∧
      batch.tree = without.tree ∧ batch.reports = without.reports ∧
      without.errors = [.notFound missing] ∧
      batch.errors = [.system binary .notText, .notFound missing] := by
  intro note link binary missing tree without batch
  have notDirectory : tree.leadsToDirectory binary = false := by decide +kernel
  have fails : (tree.fixFile .dryRun binary).answer = .error (.system binary .notText) := by
    decide +kernel
  obtain ⟨-, -, sameTree, sameReports, -, errors⟩ :=
    tree.fixPaths_isolates_failure .inPlace [note] [link, missing] notDirectory fails
  have before : (tree.fixPaths .inPlace [note]).errors = [] := by decide +kernel
  have behind : (tree.fixPaths .inPlace [link, missing]).errors = [.notFound missing] := by
    decide +kernel
  rw [before, behind] at errors
  refine ⟨notDirectory, fails, sameTree, sameReports, ?_, errors⟩
  decide +kernel

end FileTree

end TightLists
