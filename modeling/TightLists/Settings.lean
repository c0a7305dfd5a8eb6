import TightLists.Expansion
import TightLists.FileTree.Operations
import TightLists.Toml.Document

/-!
# Settings

What a user can set, the text of a settings file, and the file itself.  Reading
ignores keys that mean nothing here and takes defaults for keys that are missing;
writing gives one line for each setting that is set.

A file that is missing is no error.  Loading expands the notes path; saving
writes it as it is.
-/

namespace TightLists

/-! ## The text of a settings file -/

/-- What a user can set. -/
structure Settings where
  autoFixOnPaste : Bool := true
  /-- The notes directory to fix when no paths are given. -/
  notesPath : Option Text := none
  deriving DecidableEq, Repr

namespace Settings

/-- The key of `autoFixOnPaste`. -/
def autoFixKey : Text := "auto_fix_on_paste".toList

/-- The key of `notesPath`. -/
def notesPathKey : Text := "notes_path".toList

/-- The first setting among the entries of a settings file; it is a boolean. -/
def autoFixOf? (entries : Toml.Entries) : Option Bool :=
  match entries.lookup autoFixKey with
  | none => some true
  | some (.boolean enabled) => some enabled
  | some _ => none

/-- The second setting among the entries of a settings file; it is a string. -/
def notesPathOf? (entries : Toml.Entries) : Option (Option Text) :=
  match entries.lookup notesPathKey with
  | none => some none
  | some (.text path) => some (some path)
  | some _ => none

/-- The settings in a table.  Entries under other keys are ignored. -/
def ofEntries? (entries : Toml.Entries) : Option Settings :=
  match autoFixOf? entries, notesPathOf? entries with
  | some autoFix, some notesPath =>
      some { autoFixOnPaste := autoFix, notesPath := notesPath }
  | _, _ => none

/-- The settings in the text of a settings file, or nothing when it is
malformed. -/
def read? (text : Text) : Option Settings :=
  (Toml.read? text).bind ofEntries?

def boolWord (value : Bool) : Text :=
  if value then "true".toList else "false".toList

def writeLine (key value : Text) : Text :=
  key ++ " = ".toList ++ value ++ ['\n']

/-- The text of a settings file, with no line for a notes path that is not set. -/
def write (settings : Settings) : Text :=
  writeLine autoFixKey (boolWord settings.autoFixOnPaste) ++
    match settings.notesPath with
    | none => []
    | some path => writeLine notesPathKey (Toml.writeQuoted path)

end Settings

/-! ## Settings files -/

/-- Why settings cannot be loaded. -/
inductive SettingsError where
  | unreadable (path : Path) (cause : SystemError)
  | malformed (path : Path)
  deriving DecidableEq, Repr

namespace SettingsError

def message : SettingsError → String
  | unreadable path cause =>
      let shown := path.display
      s!"Failed to read config file at {shown}: {cause.message}"
  | malformed path =>
      let shown := path.display
      s!"Failed to parse config file at {shown}"

def cause? : SettingsError → Option SystemError
  | unreadable _ cause => some cause
  | malformed _ => none

end SettingsError

/-- The settings with their notes path expanded. -/
def Settings.expanded (settings : Settings) (environment : Environment) : Settings :=
  { settings with notesPath := settings.notesPath.map environment.expand }

/-- Where the settings file is when no other is named. -/
def Environment.settingsPath (environment : Environment) : Path :=
  (Path.ofText (environment.expandTilde "~/.config/list-spacing".toList)).join
    (Path.ofText "config.toml".toList).bytes

namespace FileTree

/-- The settings in a file, with the notes path expanded, or nothing when there
is no file. -/
def loadSettings (tree : FileTree) (environment : Environment) (path : Path) :
    Except SettingsError (Option Settings) :=
  if tree.leadsSomewhere path then
    match tree.readText path with
    | .error cause => .error (.unreadable path cause)
    | .ok text =>
        match Settings.read? text with
        | some settings => .ok (some (settings.expanded environment))
        | none => .error (.malformed path)
  else .ok none

/-- The settings in a file, or the defaults when there is no file. -/
def loadSettingsOrDefault (tree : FileTree) (environment : Environment) (path : Path) :
    Except SettingsError Settings :=
  (tree.loadSettings environment path).map fun settings => settings.getD {}

/-- Saves settings.  Directories that are missing on the way are made, and stay
even when the file itself cannot be written. -/
def saveSettings (tree : FileTree) (path : Path) (settings : Settings) :
    Change (Except SystemError Unit) :=
  let held : Change (Except SystemError Unit) :=
    match path.parent? with
    | none => { tree := tree, answer := .ok () }
    | some holder => tree.makeDirectories holder
  match held.answer with
  | .error error => { tree := held.tree, answer := .error error }
  | .ok () =>
      match held.tree.writeText path settings.write with
      | .ok written => { tree := written, answer := .ok () }
      | .error error => { tree := held.tree, answer := .error error }

end FileTree

end TightLists
