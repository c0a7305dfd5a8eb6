import TightLists.Notes.Basic
import TightLists.Tightening

/-!
# Fixing notes

Tightening files where they lie, one by one or many at once.  A batch goes on
after a file that fails: it collects reports and errors side by side, each in the
order of the paths.
-/

namespace TightLists

/-- Whether fixed notes are written back. -/
inductive WriteMode where
  /-- Write a note that changes. -/
  | inPlace
  /-- Report only. -/
  | dryRun
  deriving DecidableEq, Repr

/-- The word for a mode in log records. -/
def WriteMode.label : WriteMode → String
  | .inPlace => "InPlace"
  | .dryRun => "DryRun"

/-- What fixing one note did, or would do. -/
structure FileReport where
  path : Path
  collapsedRuns : Nat
  removedLines : Nat
  changed : Bool
  deriving DecidableEq, Repr

/-- The report of a pass over the note at a path. -/
def Tightening.report (tightening : Tightening) (path : Path) : FileReport :=
  { path := path
    collapsedRuns := tightening.collapsedRuns
    removedLines := tightening.removedLines
    changed := tightening.changed }

namespace FileReport

/-- The record of a note that was written back. -/
def writtenRecord (report : FileReport) : LogRecord :=
  let shown := report.path.display
  { level := .info
    message := s!"{shown}: removed {report.removedLines} blank line(s) between list items" }

/-- The record of a note that was left as it is. -/
def keptRecord (report : FileReport) (mode : WriteMode) : LogRecord :=
  let shown := report.path.display
  { level := .debug
    message := s!"{shown}: changed={report.changed}, mode={mode.label}" }

end FileReport

/-- The record of an error in a batch. -/
def NotesError.record (error : NotesError) : LogRecord :=
  { level := .warn, message := error.message }

/-- The outcome of fixing one note. -/
structure NoteFixing where
  tree : FileTree
  answer : Except NotesError FileReport
  log : Log

/-- The outcome of fixing many notes. -/
structure Batch where
  tree : FileTree
  reports : List FileReport
  errors : List NotesError
  log : Log

namespace Batch

/-- The batch in which nothing has been done to a tree. -/
def untouched (tree : FileTree) : Batch :=
  { tree := tree, reports := [], errors := [], log := [] }

/-- The batch of a single failure, which is logged. -/
def ofError (tree : FileTree) (error : NotesError) : Batch :=
  { tree := tree, reports := [], errors := [error], log := [error.record] }

/-- Goes on with a batch from the tree that another one left behind. -/
def andThen (first : Batch) (next : FileTree → Batch) : Batch :=
  let second := next first.tree
  { tree := second.tree
    reports := first.reports ++ second.reports
    errors := first.errors ++ second.errors
    log := first.log ++ second.log }

/-- Three batches in a row may be grouped either way. -/
theorem andThen_assoc (first : Batch) (second third : FileTree → Batch) :
    (first.andThen second).andThen third =
      first.andThen fun tree => (second tree).andThen third := by
  simp only [andThen, List.append_assoc]

/-- The batch of one note. -/
def ofFixing (fixing : NoteFixing) : Batch :=
  match fixing.answer with
  | .ok report =>
      { tree := fixing.tree, reports := [report], errors := [], log := fixing.log }
  | .error error =>
      { tree := fixing.tree
        reports := []
        errors := [error]
        log := fixing.log ++ [error.record] }

/-- How many notes changed, or would change. -/
def changedCount (batch : Batch) : Nat :=
  batch.reports.countP FileReport.changed

end Batch

namespace FileTree

/-- Tightens the note at a path. -/
def fixFile (tree : FileTree) (mode : WriteMode) (path : Path) : NoteFixing :=
  match tree.readNote path with
  | .error error => { tree := tree, answer := .error error, log := [] }
  | .ok text =>
      let tightening := text.tighten
      let report := tightening.report path
      if report.changed && mode = .inPlace then
        let written := tree.writeNote path tightening.text
        match written.answer with
        | .ok () =>
            { tree := written.tree
              answer := .ok report
              log := tightening.log ++ [report.writtenRecord] }
        | .error error =>
            { tree := written.tree, answer := .error error, log := tightening.log }
      else
        { tree := tree
          answer := .ok report
          log := tightening.log ++ [report.keptRecord mode] }

/-- Tightens the notes at some paths, one after the other. -/
def fixFiles (mode : WriteMode) (tree : FileTree) : List Path → Batch
  | [] => .untouched tree
  | path :: rest =>
      (Batch.ofFixing (tree.fixFile mode path)).andThen fun after =>
        after.fixFiles mode rest

/-- Tightens what a path leads to: the notes below a directory, or the file
itself whatever its name is. -/
def fixPath (mode : WriteMode) (tree : FileTree) (path : Path) : Batch :=
  if tree.leadsToDirectory path then
    match tree.scanNotes path with
    | .ok notes => tree.fixFiles mode notes
    | .error error => .ofError tree error
  else .ofFixing (tree.fixFile mode path)

/-- Tightens what some paths lead to, one after the other. -/
def fixPaths (mode : WriteMode) (tree : FileTree) : List Path → Batch
  | [] => .untouched tree
  | path :: rest =>
      (tree.fixPath mode path).andThen fun after => after.fixPaths mode rest

end FileTree

end TightLists
