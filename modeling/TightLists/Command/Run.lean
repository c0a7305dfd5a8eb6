import TightLists.Command.Arguments
import TightLists.Notes.Batch
import TightLists.Host
import TightLists.Settings

/-!
# Running a command

A command is run on a file tree, an environment and the bytes of the standard
input.  It leaves a file tree, prints bytes, and ends with an exit status or with
a failure.  A command that fails prints nothing.
-/

namespace TightLists

/-- Why a command ends without an exit status of its own. -/
inductive Failure where
  | settings (error : SettingsError)
  /-- No paths were given, and the settings name no notes directory. -/
  | noNotesPath (config : Path)
  /-- The notes path in the settings is no directory. -/
  | invalidNotesPath (notes config : Path) (cause : NotesError)
  /-- A fixed text can be printed for a single file only. -/
  | notOneFile
  | unreadableNote (error : NotesError)
  | saving (config : Path) (cause : SystemError)
  deriving DecidableEq, Repr

namespace Failure

/-- The messages of a failure and of what is behind it, the outermost first. -/
def chain : Failure → List String
  | settings error => error.message :: error.cause?.toList.map SystemError.message
  | noNotesPath config =>
      let shown := config.display
      [s!"no paths given and no notes_path set in {shown}"]
  | invalidNotesPath notes config cause =>
      let shownNotes := notes.display
      let shown := config.display
      [s!"Notes path '{shownNotes}' from config file '{shown}' is invalid", cause.message]
  | notOneFile => ["--stdout takes exactly one file"]
  | unreadableNote error => error.message :: error.cause?.toList.map SystemError.message
  | saving config cause =>
      let shown := config.display
      [s!"saving {shown}", cause.message]

/-- What is printed about a failure: all its messages on one line. -/
def message (failure : Failure) : String :=
  ": ".intercalate failure.chain

end Failure

/-- How a command ends. -/
inductive Ending where
  | finished (status : Nat)
  | failed (failure : Failure)
  deriving DecidableEq, Repr

namespace Ending

def status : Ending → Nat
  | finished status => status
  | failed _ => 1

end Ending

/-- What a command leaves behind.  The log is kept apart from the output. -/
structure Run where
  tree : FileTree
  output : ByteArray
  ending : Ending
  log : Log

namespace Run

/-- A run that changes nothing and prints the given bytes. -/
def printing (tree : FileTree) (output : ByteArray) (log : Log) : Run :=
  { tree := tree, output := output, ending := .finished 0, log := log }

/-- A run that fails before it has logged anything. -/
def failing (tree : FileTree) (failure : Failure) : Run :=
  { tree := tree, output := .empty, ending := .failed failure, log := [] }

end Run

/-! ## Fixing notes -/

def FileReport.line (report : FileReport) (mode : WriteMode) : String :=
  let verb := match mode with
    | .inPlace => "fixed"
    | .dryRun => "would fix"
  let shown := report.path.display
  s!"{verb} {shown} ({report.removedLines} blank line(s) removed)\n"

def NotesError.line (error : NotesError) : String :=
  s!"error: {error.message}\n"

namespace Batch

/-- The lines at the end of what is printed about a batch.  The second one is left
out when all paths could be processed. -/
def summary (batch : Batch) (mode : WriteMode) : String :=
  let done := match mode with
    | .inPlace => "fixed"
    | .dryRun => "need fixing"
  let failures :=
    if batch.errors.isEmpty then ""
    else s!"{batch.errors.length} path(s) could not be processed\n"
  s!"{batch.changedCount} of {batch.reports.length} file(s) {done}\n" ++ failures

/-- What is printed about a batch: the notes that change, the errors, and the
summary. -/
def output (batch : Batch) (mode : WriteMode) : String :=
  String.join
    ((batch.reports.filter FileReport.changed).map (FileReport.line · mode) ++
      batch.errors.map NotesError.line ++ [batch.summary mode])

/-- The exit status for a batch.  Errors come before all else; notes that would
change count only where nothing is written. -/
def status (batch : Batch) (mode : WriteMode) : Nat :=
  if batch.errors ≠ [] then 2
  else if mode = .dryRun ∧ 0 < batch.changedCount then 1
  else 0

def run (batch : Batch) (mode : WriteMode) : Run :=
  { tree := batch.tree
    output := (batch.output mode).toUTF8
    ending := .finished (batch.status mode)
    log := batch.log }

end Batch

namespace FileTree

/-- The notes path from a settings file, which must lead to a directory. -/
def notesPathFrom (tree : FileTree) (environment : Environment) (config : Path) :
    Except Failure Path :=
  match tree.loadSettings environment config with
  | .error error => .error (.settings error)
  | .ok (some { notesPath := some text, .. }) =>
      let notes := Path.ofText text
      match tree.validateNotesDirectory notes with
      | .ok () => .ok notes
      | .error cause => .error (.invalidNotesPath notes config cause)
  | .ok _ => .error (.noNotesPath config)

/-- The paths to fix: those given, or else the notes path from the settings. -/
def pathsToFix (tree : FileTree) (environment : Environment) (config : Path) :
    List Path → Except Failure (List Path)
  | [] => (tree.notesPathFrom environment config).map ([·])
  | paths => .ok paths

/-- Prints the fixed text of a single note, which is not written back. -/
def runPrint (tree : FileTree) : List Path → Run
  | [path] =>
      match tree.readNote path with
      | .ok text => .printing tree text.tightened.encode text.tighten.log
      | .error error => .failing tree (.unreadableNote error)
  | _ => .failing tree .notOneFile

def runFix (tree : FileTree) (environment : Environment) (config : Path)
    (mode : FixMode) (paths : List Path) : Run :=
  match tree.pathsToFix environment config paths with
  | .error failure => .failing tree failure
  | .ok paths =>
      match mode with
      | .print => tree.runPrint paths
      | .check => (tree.fixPaths .dryRun paths).run .dryRun
      | .write => (tree.fixPaths .inPlace paths).run .inPlace

/-! ## The other commands -/

/-- Prints what a paste of the given bytes inserts.  Bytes that are not UTF-8
are no text, and are pasted as they are. -/
def runPaste (tree : FileTree) (fixer : PasteFixer) (input : ByteArray) : Run :=
  let pasting := fixer.paste (Text.decode? input) .empty
  .printing tree
    (if pasting.outcome.preventsDefault then pasting.editor.text.encode else input)
    pasting.log

/-- What is printed about the settings that are in effect. -/
def settingsLines (config : Path) (settings : Option Settings) : String :=
  let shown := config.display
  let source := if settings.isSome then "loaded" else "not found, using defaults"
  let effective := settings.getD {}
  let notes := match effective.notesPath with
    | some path => String.ofList path
    | none => "(unset)"
  s!"config file: {shown} ({source})\n" ++
    s!"auto_fix_on_paste = {effective.autoFixOnPaste}\n" ++
    s!"notes_path = {notes}\n"

def runShow (tree : FileTree) (environment : Environment) (config : Path) : Run :=
  match tree.loadSettings environment config with
  | .ok settings => .printing tree (settingsLines config settings).toUTF8 []
  | .error error => .failing tree (.settings error)

/-- Sets the switch.  The settings are loaded and saved as a whole, so the notes
path is saved as it came out of expansion. -/
def runSetAutoFix (tree : FileTree) (environment : Environment) (config : Path)
    (enabled : Bool) : Run :=
  match tree.loadSettingsOrDefault environment config with
  | .error error => .failing tree (.settings error)
  | .ok settings =>
      let saved := tree.saveSettings config { settings with autoFixOnPaste := enabled }
      match saved.answer with
      | .ok () => .printing saved.tree (s!"auto_fix_on_paste = {enabled}\n").toUTF8 []
      | .error cause => .failing saved.tree (.saving config cause)

/-- Runs a command.  The settings file is the one that the invocation names, or else
the usual one. -/
def run (tree : FileTree) (environment : Environment) (input : ByteArray)
    (invocation : Invocation) : Run :=
  let config := invocation.config.getD environment.settingsPath
  match invocation.command with
  | .fix mode paths => tree.runFix environment config mode paths
  | .paste (some autoFix) => tree.runPaste { autoFix := autoFix } input
  | .paste none =>
      match tree.loadSettingsOrDefault environment config with
      | .ok settings => tree.runPaste { autoFix := settings.autoFixOnPaste } input
      | .error error => .failing tree (.settings error)
  | .showSettings => tree.runShow environment config
  | .setAutoFix enabled => tree.runSetAutoFix environment config enabled

end FileTree

end TightLists
