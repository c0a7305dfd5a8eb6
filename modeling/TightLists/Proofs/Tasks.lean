import TightLists.Proofs.NoteFixing

/-!
# A batch as a list of tasks

A batch is a list of tasks: notes to be fixed, and directories that cannot be listed.
Which tasks there are depends on the tree, but nothing that a batch does to the tree
changes them, so a batch can be told from its tasks in the tree it begins with
(`fixPaths_eq_runTasks`).

A dry run and a real run go through the same tasks (`runTasks_inPlace`).  They differ
only where a note comes again: the real run finds it tight already.
-/

namespace TightLists

namespace FileReport

/-- The report of a note that is found again after it has been fixed. -/
def settled (report : FileReport) : FileReport :=
  { path := report.path, collapsedRuns := 0, removedLines := 0, changed := false }

theorem report_tightened (text : Text) (path : Path) :
    text.tightened.tighten.report path = (text.tighten.report path).settled := by
  have unchanged := Text.tightened_tightened text
  obtain ⟨noRuns, noLines⟩ := Text.statistics_of_tightened_eq_self unchanged
  have notChanged : text.tightened.tighten.changed = false := by
    refine Bool.eq_false_iff.mpr fun changed => ?_
    exact (Text.changed_tighten_iff text.tightened).mp changed unchanged
  simp [Tightening.report, settled, noRuns, noLines, notChanged]

end FileReport

namespace Batch

@[simp] theorem andThen_untouched (batch : Batch) : batch.andThen untouched = batch := by
  simp [andThen, untouched]

theorem andThen_congr {batch : Batch} {first second : FileTree → Batch}
    (same : first batch.tree = second batch.tree) :
    batch.andThen first = batch.andThen second := by
  simp only [andThen, same]

end Batch

namespace FileTree

/-! ## Tasks -/

/-- The notes that a path stands for: those below a directory, or else the path
itself. -/
def expansion (tree : FileTree) (path : Path) : Except NotesError (List Path) :=
  if tree.leadsToDirectory path then tree.scanNotes path else .ok [path]

/-- One of the paths stands for the note. -/
def Finds (tree : FileTree) (paths : List Path) (note : Path) : Prop :=
  ∃ path ∈ paths, ∃ notes, tree.expansion path = .ok notes ∧ note ∈ notes

/-- A path fails when it is a directory that cannot be listed, and when one of the notes
that it stands for cannot be read. -/
inductive FailsWith (tree : FileTree) (path : Path) (error : NotesError) : Prop where
  | unlisted (failed : tree.expansion path = .error error)
  | unread {notes : List Path} {note : Path} (listed : tree.expansion path = .ok notes)
      (member : note ∈ notes) (failed : tree.readNote note = .error error)

def tasksOf (tree : FileTree) (path : Path) : List (Except NotesError Path) :=
  match tree.expansion path with
  | .ok notes => notes.map .ok
  | .error error => [.error error]

def tasks (tree : FileTree) (paths : List Path) : List (Except NotesError Path) :=
  paths.flatMap tree.tasksOf

/-- What a task answers. -/
def outcome (tree : FileTree) : Except NotesError Path → Except NotesError FileReport
  | .ok note => (tree.readNote note).map fun text => text.tighten.report note
  | .error error => .error error

def runTask (mode : WriteMode) (tree : FileTree) : Except NotesError Path → Batch
  | .ok note => .ofFixing (tree.fixFile mode note)
  | .error error => .ofError tree error

def runTasks (mode : WriteMode) (tree : FileTree) : List (Except NotesError Path) → Batch
  | [] => .untouched tree
  | task :: rest =>
      (tree.runTask mode task).andThen fun after => after.runTasks mode rest

/-- The tree that is left when the notes at some paths have been fixed. -/
def left (tree : FileTree) : WriteMode → List Path → FileTree
  | .dryRun, _ => tree
  | .inPlace, paths => tree.tightenedAt paths

variable (tree : FileTree) (mode : WriteMode)

theorem expansion_of_not_directory {path : Path}
    (file : tree.leadsToDirectory path = false) : tree.expansion path = .ok [path] := by
  simp [expansion, file]

theorem mem_tasks_ok_iff {paths : List Path} {note : Path} :
    .ok note ∈ tree.tasks paths ↔ tree.Finds paths note := by
  rw [tasks, List.mem_flatMap, Finds]
  refine exists_congr fun path => and_congr_right fun _ => ?_
  rw [tasksOf]
  cases tree.expansion path <;> simp

theorem mem_tasks_error_iff {paths : List Path} {error : NotesError} :
    .error error ∈ tree.tasks paths ↔
      ∃ path ∈ paths, tree.expansion path = .error error := by
  rw [tasks, List.mem_flatMap]
  refine exists_congr fun path => and_congr_right fun _ => ?_
  rw [tasksOf]
  cases tree.expansion path <;> simp [eq_comm]

/-! ## One task -/

theorem outcome_eq_ok_iff {task : Except NotesError Path} {report : FileReport} :
    tree.outcome task = .ok report ↔
      ∃ note text, task = .ok note ∧ tree.readNote note = .ok text ∧
        text.tighten.report note = report := by
  cases task with
  | error error => simp [outcome]
  | ok note => cases read : tree.readNote note <;> simp [outcome, read, Except.map]

theorem outcome_eq_error_iff {task : Except NotesError Path} {error : NotesError} :
    tree.outcome task = .error error ↔
      task = .error error ∨
        ∃ note, task = .ok note ∧ tree.readNote note = .error error := by
  cases task with
  | error cause => simp [outcome]
  | ok note => cases read : tree.readNote note <;> simp [outcome, read, Except.map]

theorem runTask_of_outcome_ok {task : Except NotesError Path} {report : FileReport}
    (done : tree.outcome task = .ok report) :
    (tree.runTask mode task).reports = [report] ∧
      (tree.runTask mode task).errors = [] ∧
      (tree.runTask mode task).tree = tree.left mode [report.path] := by
  obtain ⟨note, text, rfl, read, rfl⟩ := (tree.outcome_eq_ok_iff).mp done
  have answer : (tree.fixFile mode note).answer = .ok (text.tighten.report note) := by
    rw [answer_fixFile, read]
    rfl
  have after : (tree.fixFile mode note).tree = tree.left mode [note] := by
    cases mode with
    | dryRun => exact tree.tree_fixFile_dryRun note
    | inPlace => exact tree.tree_fixFile_inPlace read
  rw [runTask, Batch.ofFixing, answer]
  exact ⟨rfl, rfl, after⟩

theorem runTask_of_outcome_error {task : Except NotesError Path} {error : NotesError}
    (failed : tree.outcome task = .error error) :
    (tree.runTask mode task).reports = [] ∧
      (tree.runTask mode task).errors = [error] ∧
      (tree.runTask mode task).tree = tree := by
  rcases (tree.outcome_eq_error_iff).mp failed with rfl | ⟨note, rfl, unread⟩
  · exact ⟨rfl, rfl, rfl⟩
  · have answer : (tree.fixFile mode note).answer = .error error := by
      rw [answer_fixFile, unread]
      rfl
    rw [runTask, Batch.ofFixing, answer]
    exact ⟨rfl, rfl, tree.tree_fixFile_of_error mode unread⟩

/-! ## All tasks -/

/-- The report of a note in a tree that has been tightened at some paths. -/
def reportAfter (seen : List Path) (report : FileReport) : FileReport :=
  if ∃ path ∈ seen, tree.placeOf? path = tree.placeOf? report.path then report.settled
  else report

@[simp] theorem path_reportAfter (seen : List Path) (report : FileReport) :
    (tree.reportAfter seen report).path = report.path := by
  rw [reportAfter]
  split <;> rfl

theorem outcome_tightenedAt (seen : List Path) (task : Except NotesError Path) :
    (tree.tightenedAt seen).outcome task =
      (tree.outcome task).map (tree.reportAfter seen) := by
  cases task with
  | error error => rfl
  | ok note =>
      rw [outcome, outcome, readNote_tightenedAt]
      cases tree.readNote note with
      | error error => rfl
      | ok text =>
          refine congrArg Except.ok ?_
          have samePath : (text.tighten.report note).path = note := rfl
          rw [reportAfter, samePath]
          split
          · exact FileReport.report_tightened text note
          · rfl

/-- The reports of a real run, made from those of a dry run: a note that has been seen
has nothing more to remove. -/
def reportsAfter (seen : List Path) : List FileReport → List FileReport
  | [] => []
  | report :: rest =>
      tree.reportAfter seen report :: reportsAfter (seen ++ [report.path]) rest

/-- A dry run leaves the tree alone.  A real run of the same tasks, on the tree that
earlier ones have tightened at the seen paths, fails where the dry run does. -/
theorem runTasks_inPlace (seen : List Path) (tasks : List (Except NotesError Path)) :
    let dry := tree.runTasks .dryRun tasks
    let real := (tree.tightenedAt seen).runTasks .inPlace tasks
    dry.tree = tree ∧
      real.tree = tree.tightenedAt (seen ++ dry.reports.map FileReport.path) ∧
      real.errors = dry.errors ∧ real.reports = tree.reportsAfter seen dry.reports := by
  induction tasks generalizing seen with
  | nil => simp [runTasks, Batch.untouched, reportsAfter]
  | cons task tasks induction =>
      -- The induction is on the tasks and keeps the tree; what the real run has
      -- written so far is all in `seen`.
      have later := tree.outcome_tightenedAt seen task
      simp only [runTasks, Batch.andThen]
      cases done : tree.outcome task with
      | error error =>
          rw [done] at later
          obtain ⟨dryReports, dryErrors, dryTree⟩ :=
            tree.runTask_of_outcome_error .dryRun done
          obtain ⟨realReports, realErrors, realTree⟩ :=
            (tree.tightenedAt seen).runTask_of_outcome_error .inPlace later
          simpa [dryReports, dryErrors, dryTree, realReports, realErrors, realTree]
            using induction seen
      | ok report =>
          rw [done] at later
          obtain ⟨dryReports, dryErrors, dryTree⟩ :=
            tree.runTask_of_outcome_ok .dryRun done
          obtain ⟨realReports, realErrors, realTree⟩ :=
            (tree.tightenedAt seen).runTask_of_outcome_ok .inPlace later
          rw [left, path_reportAfter, tightenedAt_tightenedAt] at realTree
          simpa [dryReports, dryErrors, dryTree, realReports, realErrors, realTree, left,
            reportsAfter] using induction (seen ++ [report.path])

theorem tree_runTasks (tasks : List (Except NotesError Path)) :
    (tree.runTasks mode tasks).tree =
      tree.left mode ((tree.runTasks .dryRun tasks).reports.map FileReport.path) := by
  have both := tree.runTasks_inPlace [] tasks
  rw [tightenedAt_nil] at both
  cases mode with
  | dryRun => exact both.1
  | inPlace => exact both.2.1

theorem errors_runTasks (tasks : List (Except NotesError Path)) :
    (tree.runTasks mode tasks).errors = (tree.runTasks .dryRun tasks).errors := by
  have both := tree.runTasks_inPlace [] tasks
  rw [tightenedAt_nil] at both
  cases mode with
  | dryRun => rfl
  | inPlace => exact both.2.2.1

/-! ## Batches -/

theorem runTasks_append (first second : List (Except NotesError Path)) :
    tree.runTasks mode (first ++ second) =
      (tree.runTasks mode first).andThen fun after => after.runTasks mode second := by
  induction first generalizing tree with
  | nil => rfl
  | cons task first induction =>
      rw [List.cons_append, runTasks, runTasks, Batch.andThen_assoc]
      exact Batch.andThen_congr (induction (tree.runTask mode task).tree)

theorem fixFiles_eq_runTasks (notes : List Path) :
    tree.fixFiles mode notes = tree.runTasks mode (notes.map .ok) := by
  induction notes generalizing tree with
  | nil => rfl
  | cons note notes induction =>
      rw [fixFiles, List.map_cons, runTasks]
      exact Batch.andThen_congr (induction _)

theorem fixPath_eq_runTasks (path : Path) :
    tree.fixPath mode path = tree.runTasks mode (tree.tasksOf path) := by
  rw [fixPath, tasksOf, expansion]
  by_cases directory : tree.leadsToDirectory path = true
  · rw [if_pos directory, if_pos directory]
    cases tree.scanNotes path with
    | ok notes => exact tree.fixFiles_eq_runTasks mode notes
    | error error => exact (Batch.andThen_untouched _).symm
  · rw [if_neg directory, if_neg directory]
    exact (Batch.andThen_untouched _).symm

/-- Nothing that a batch does to a tree changes what there is to do. -/
theorem tasks_left (paths others : List Path) :
    (tree.left mode paths).tasks others = tree.tasks others := by
  cases mode with
  | dryRun => rfl
  | inPlace =>
      have same : (tree.left .inPlace paths).tasksOf = tree.tasksOf := by
        funext path
        simp [left, tightenedAt, tasksOf, expansion]
      rw [tasks, tasks, same]

/-- A batch is the run of the tasks that its tree gives at the beginning. -/
theorem fixPaths_eq_runTasks (paths : List Path) :
    tree.fixPaths mode paths = tree.runTasks mode (tree.tasks paths) := by
  induction paths generalizing tree with
  | nil => rfl
  | cons path paths induction =>
      have split : tree.tasks (path :: paths) = tree.tasksOf path ++ tree.tasks paths :=
        List.flatMap_cons
      rw [fixPaths, fixPath_eq_runTasks, split, runTasks_append]
      refine Batch.andThen_congr ?_
      rw [induction, tree_runTasks, tasks_left]

/-- The tree that a batch leaves is told by the notes that a dry run reports. -/
theorem tree_fixPaths (paths : List Path) :
    (tree.fixPaths mode paths).tree =
      tree.left mode ((tree.fixPaths .dryRun paths).reports.map FileReport.path) := by
  rw [fixPaths_eq_runTasks, fixPaths_eq_runTasks, tree_runTasks]

theorem errors_fixPaths (paths : List Path) :
    (tree.fixPaths mode paths).errors = (tree.fixPaths .dryRun paths).errors := by
  rw [fixPaths_eq_runTasks, fixPaths_eq_runTasks, errors_runTasks]

/-! ## Reports and errors -/

/-- A dry run answers each task as the tree that it begins with does. -/
theorem mem_runTasks_dryRun_iff (tasks : List (Except NotesError Path)) :
    (∀ report, report ∈ (tree.runTasks .dryRun tasks).reports ↔
        ∃ task ∈ tasks, tree.outcome task = .ok report) ∧
      ∀ error, error ∈ (tree.runTasks .dryRun tasks).errors ↔
        ∃ task ∈ tasks, tree.outcome task = .error error := by
  induction tasks with
  | nil => simp [runTasks, Batch.untouched]
  | cons task tasks induction =>
      obtain ⟨ofReports, ofErrors⟩ := induction
      simp only [runTasks, Batch.andThen, List.mem_append]
      cases done : tree.outcome task with
      | ok report =>
          obtain ⟨reports, errors, after⟩ := tree.runTask_of_outcome_ok .dryRun done
          rw [reports, errors, after, left]
          simp [ofReports, ofErrors, done, eq_comm]
      | error error =>
          obtain ⟨reports, errors, after⟩ := tree.runTask_of_outcome_error .dryRun done
          rw [reports, errors, after]
          simp [ofReports, ofErrors, done, eq_comm]

/-- The reports of a dry run are those of the notes that its paths stand for, as far as
they can be read. -/
theorem mem_reports_fixPaths_iff {paths : List Path} {report : FileReport} :
    report ∈ (tree.fixPaths .dryRun paths).reports ↔
      ∃ note text, tree.Finds paths note ∧ tree.readNote note = .ok text ∧
        text.tighten.report note = report := by
  rw [fixPaths_eq_runTasks, (tree.mem_runTasks_dryRun_iff _).1]
  constructor
  · rintro ⟨task, member, done⟩
    obtain ⟨note, text, rfl, read, same⟩ := (tree.outcome_eq_ok_iff).mp done
    exact ⟨note, text, (tree.mem_tasks_ok_iff).mp member, read, same⟩
  · rintro ⟨note, text, found, read, same⟩
    have done := (tree.outcome_eq_ok_iff).mpr ⟨note, text, rfl, read, same⟩
    exact ⟨.ok note, (tree.mem_tasks_ok_iff).mpr found, done⟩

theorem mem_errors_fixPaths_iff {paths : List Path} {error : NotesError} :
    error ∈ (tree.fixPaths .dryRun paths).errors ↔
      ∃ path ∈ paths, tree.FailsWith path error := by
  rw [fixPaths_eq_runTasks, (tree.mem_runTasks_dryRun_iff _).2]
  constructor
  · rintro ⟨task, member, failed⟩
    rcases (tree.outcome_eq_error_iff).mp failed with rfl | ⟨note, rfl, unread⟩
    · obtain ⟨path, given, unlisted⟩ := (tree.mem_tasks_error_iff).mp member
      exact ⟨path, given, .unlisted unlisted⟩
    · obtain ⟨path, given, notes, expanded, listed⟩ := (tree.mem_tasks_ok_iff).mp member
      exact ⟨path, given, .unread expanded listed unread⟩
  · rintro ⟨path, given, fails⟩
    cases fails with
    | unlisted failed =>
        exact ⟨.error error, (tree.mem_tasks_error_iff).mpr ⟨path, given, failed⟩, rfl⟩
    | @unread notes note listed member failed =>
        have isTask := (tree.mem_tasks_ok_iff).mpr ⟨path, given, notes, listed, member⟩
        exact ⟨.ok note, isTask, (tree.outcome_eq_error_iff).mpr (.inr ⟨note, rfl, failed⟩)⟩

end FileTree

end TightLists
