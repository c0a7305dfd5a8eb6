import Mathlib.Data.List.Basic
import TightLists.Command.Run
import TightLists.Proofs.NewDirectories
import TightLists.Proofs.SettingsText

/-!
# Settings that are saved and loaded again

A saved file is found under the path it was saved to, and its text is read as the
settings it was written for, so loading them only expands the notes path.  A notes path
without references and without a tilde at its front is left alone by that.

Switching fixing on paste on or off saves the settings as they were loaded, with the
notes path expanded, and so the next loading expands it a second time.  A path that has
come out of the first expansion with a reference in it is led somewhere else.
-/

namespace TightLists

/-! ## Texts that expansion leaves alone -/

theorem fragments_of_notMem {text : Text} (noReference : '$' ∉ text) :
    fragments text = text.map fun character => .literal [character] := by
  induction text with
  | nil => rw [fragments, List.map_nil]
  | cons first rest induction =>
      rw [List.mem_cons, not_or] at noReference
      obtain ⟨notFirst, notRest⟩ := noReference
      have otherwise : ∀ {more : Text}, first = '$' → rest = more → False :=
        fun dollar _ => notFirst dollar.symm
      rw [fragments, induction notRest, List.map_cons]
      · exact fun _ => otherwise
      · exact fun _ => otherwise
      · exact fun dollar => notFirst dollar.symm

namespace Environment

theorem mapM_resolve?_literals (environment : Environment) (text : Text) :
    (text.map fun character => .literal [character]).mapM environment.resolve? =
      some (text.map fun character => [character]) := by
  induction text with
  | nil => rfl
  | cons first rest induction =>
      rw [List.map_cons, List.mapM_cons, induction]
      rfl

theorem expandVariables?_eq_self (environment : Environment) {text : Text}
    (noReference : '$' ∉ text) : environment.expandVariables? text = some text := by
  rw [expandVariables?, fragments_of_notMem noReference, mapM_resolve?_literals,
    Option.map_some, ← List.flatMap_def, List.flatMap_singleton']

theorem expandTilde_eq_self (environment : Environment) {text : Text}
    (noTilde : text.head? ≠ some '~') : environment.expandTilde text = text := by
  rw [expandTilde]
  rintro rest home rfl
  exact absurd rfl noTilde

theorem expand_eq_self (environment : Environment) {text : Text}
    (noReference : '$' ∉ text) (noTilde : text.head? ≠ some '~') :
    environment.expand text = text := by
  simp [expand, expand?, environment.expandVariables?_eq_self noReference,
    environment.expandTilde_eq_self noTilde]

end Environment

/-- There is no notes path, or one without references and without a tilde at its front. -/
def Settings.Plain (settings : Settings) : Prop :=
  ∀ notes, settings.notesPath = some notes → '$' ∉ notes ∧ notes.head? ≠ some '~'

theorem Settings.Plain.map_expand {settings : Settings} (plain : settings.Plain)
    (environment : Environment) :
    settings.notesPath.map environment.expand = settings.notesPath := by
  cases isPath : settings.notesPath with
  | none => rfl
  | some notes =>
      obtain ⟨noReference, noTilde⟩ := plain notes isPath
      rw [Option.map_some, environment.expand_eq_self noReference noTilde]

theorem Settings.Plain.expanded {settings : Settings} (plain : settings.Plain)
    (environment : Environment) : settings.expanded environment = settings := by
  rw [Settings.expanded, plain.map_expand]

namespace FileTree

variable {tree : FileTree} {environment : Environment} {path : Path}

/-! ## Saving and loading -/

theorem leadsSomewhere_of_readText {text : Text} (read : tree.readText path = .ok text) :
    tree.leadsSomewhere path = true := by
  rw [readText, readBytes] at read
  rw [leadsSomewhere, placeOf?]
  cases found : tree.lookup .use path with
  | found place => rfl
  | vacant holder name =>
      rw [found] at read
      cases read
  | failed error =>
      rw [found] at read
      cases read

theorem loadSettings_of_readText {text : Text} {settings : Settings}
    (read : tree.readText path = .ok text) (isSettings : Settings.read? text = some settings) :
    tree.loadSettings environment path = .ok (some (settings.expanded environment)) := by
  rw [loadSettings, if_pos (leadsSomewhere_of_readText read), read]
  simp only [isSettings]

theorem loadSettings_of_writeText {after : FileTree} {settings : Settings}
    (written : tree.writeText path settings.write = .ok after) :
    after.loadSettings environment path = .ok (some (settings.expanded environment)) :=
  loadSettings_of_readText (readText_of_writeText written) settings.read?_write

/-- What comes of saving settings: the file is written once its directories are there, or
something is in the way and the directories that could be made are left behind. -/
inductive Saving (tree : FileTree) (path : Path) (settings : Settings) :
    Change (Except SystemError Unit) → Prop where
  | written {held after : FileTree} (adds : tree.OnlyAddsDirectories held)
      (writes : held.writeText path settings.write = .ok after) :
      Saving tree path settings { tree := after, answer := .ok () }
  | failed {held : FileTree} (adds : tree.OnlyAddsDirectories held) (error : SystemError) :
      Saving tree path settings { tree := held, answer := .error error }

theorem saving_saveSettings (tree : FileTree) (path : Path) (settings : Settings) :
    tree.Saving path settings (tree.saveSettings path settings) := by
  unfold saveSettings
  extract_lets held
  have adds : tree.OnlyAddsDirectories held.tree := by
    subst held
    split
    · exact .refl tree
    · exact tree.onlyAddsDirectories_makeDirectories _
  split
  · rename_i error _
    exact .failed adds error
  · split
    · rename_i after written
      exact .written adds written
    · rename_i error _
      exact .failed adds error

theorem loadSettings_saveSettings {settings : Settings} (environment : Environment)
    (saved : (tree.saveSettings path settings).answer = .ok ()) :
    (tree.saveSettings path settings).tree.loadSettings environment path =
      .ok (some (settings.expanded environment)) := by
  have saving := tree.saving_saveSettings path settings
  generalize tree.saveSettings path settings = change at saving saved ⊢
  cases saving with
  | written _ writes => exact loadSettings_of_writeText writes
  | failed _ error => cases saved

/-- Settings that have been saved are loaded with the same switch and with the notes
path expanded; settings whose notes path expansion leaves alone come back unchanged. -/
theorem settings_load_as_saved (tree : FileTree) (environment : Environment) (path : Path)
    (settings : Settings) (saved : (tree.saveSettings path settings).answer = .ok ()) :
    ∃ loaded,
      (tree.saveSettings path settings).tree.loadSettings environment path =
          .ok (some loaded) ∧
        loaded.autoFixOnPaste = settings.autoFixOnPaste ∧
        (loaded.notesPath = settings.notesPath.map fun notes =>
          (environment.expand? notes).getD notes) ∧
        (settings.Plain → loaded = settings) := by
  refine ⟨settings.expanded environment, loadSettings_saveSettings environment saved,
    rfl, rfl, ?_⟩
  intro plain
  exact plain.expanded environment

/-- A path with all kinds of quotes, line breaks and controls comes back from a file in
a directory that was made for it. -/
theorem settings_load_as_saved_in_new_directory :
    let file : Path := { bytes := [0x64, 0x2F, 0x63] }
    let settings : Settings :=
      { autoFixOnPaste := false
        notesPath := some "\n\"\"\"\\\r\n\x27\x27\x27\t\x00\"\"".toList }
    (empty.saveSettings file settings).answer = .ok () ∧
      (empty.saveSettings file settings).tree.loadSettings { bindings := [] } file =
        .ok (some settings) := by
  intro file settings
  have saved : (empty.saveSettings file settings).answer = .ok () := by decide +kernel
  have plain : settings.Plain := by
    intro notes isPath
    obtain rfl := Option.some.inj isPath
    decide
  obtain ⟨loaded, loads, -, -, unchanged⟩ :=
    settings_load_as_saved empty { bindings := [] } file settings saved
  obtain rfl := unchanged plain
  exact ⟨saved, loads⟩

/-! ## Switching fixing on paste on or off -/

/-- What comes of setting the switch: the settings cannot be loaded, they cannot be saved,
or they are saved as they were loaded, but for the switch. -/
inductive Switching (tree : FileTree) (environment : Environment) (config : Path)
    (enabled : Bool) : Run → Prop where
  | unread {error : SettingsError}
      (unread : tree.loadSettingsOrDefault environment config = .error error) :
      Switching tree environment config enabled (.failing tree (.settings error))
  | unsaved {held : FileTree} (adds : tree.OnlyAddsDirectories held)
      (cause : SystemError) :
      Switching tree environment config enabled (.failing held (.saving config cause))
  | saved {held after : FileTree} {settings : Settings}
      (loaded : tree.loadSettingsOrDefault environment config = .ok settings)
      (adds : tree.OnlyAddsDirectories held)
      (writes : held.writeText config
        ({ settings with autoFixOnPaste := enabled } : Settings).write = .ok after)
      (output : ByteArray) :
      Switching tree environment config enabled (.printing after output [])

theorem switching_runSetAutoFix (tree : FileTree) (environment : Environment)
    (config : Path) (enabled : Bool) :
    tree.Switching environment config enabled
      (tree.runSetAutoFix environment config enabled) := by
  rw [runSetAutoFix]
  split
  · rename_i unread
    exact .unread unread
  · rename_i settings loaded
    have saving :=
      tree.saving_saveSettings config { settings with autoFixOnPaste := enabled }
    generalize tree.saveSettings config _ = change at saving ⊢
    cases saving with
    | written adds writes => exact .saved loaded adds writes _
    | failed adds error => exact .unsaved adds error

theorem Switching.exists_of_succeeded {enabled : Bool} {run : Run}
    (switching : tree.Switching environment path enabled run)
    (succeeded : run.ending.status = 0) :
    ∃ settings held, tree.loadSettingsOrDefault environment path = .ok settings ∧
      tree.OnlyAddsDirectories held ∧
      held.writeText path ({ settings with autoFixOnPaste := enabled } : Settings).write =
        .ok run.tree := by
  cases switching with
  | unread _ => cases succeeded
  | unsaved _ cause => cases succeeded
  | saved loaded adds writes output => exact ⟨_, _, loaded, adds, writes⟩

/-- When the switch has been set, the settings that were loaded are loaded again with
that switch, and with their notes path expanded once more. -/
theorem exists_of_runSetAutoFix {enabled : Bool}
    (succeeded : (tree.runSetAutoFix environment path enabled).ending.status = 0) :
    ∃ settings, tree.loadSettingsOrDefault environment path = .ok settings ∧
      (tree.runSetAutoFix environment path enabled).tree.loadSettings environment path =
        .ok (some (({ settings with autoFixOnPaste := enabled } : Settings).expanded
          environment)) := by
  obtain ⟨settings, held, loaded, -, writes⟩ :=
    (tree.switching_runSetAutoFix environment path enabled).exists_of_succeeded succeeded
  exact ⟨settings, loaded, loadSettings_of_writeText writes⟩

/-- Setting the switch expands the notes path once more than loading had.  So the path
stays what it was just when expansion leaves alone what had been loaded. -/
theorem setAutoFix_expands_notesPath_again (tree : FileTree) (environment : Environment)
    (input : ByteArray) (config : Option Path) (verbosity : Nat) (enabled : Bool)
    (settings : Settings)
    (loaded : tree.loadSettings environment (config.getD environment.settingsPath) =
      .ok (some settings))
    (succeeded : (tree.run environment input
      { config := config, verbosity := verbosity,
        command := .setAutoFix enabled }).ending.status = 0) :
    ∃ after,
      (tree.run environment input
          { config := config, verbosity := verbosity,
            command := .setAutoFix enabled }).tree.loadSettings environment
          (config.getD environment.settingsPath) = .ok (some after) ∧
        after.autoFixOnPaste = enabled ∧
        after.notesPath = settings.notesPath.map environment.expand ∧
        (after.notesPath = settings.notesPath ↔
          ∀ notes, settings.notesPath = some notes → environment.expand notes = notes) ∧
        (settings.Plain → after.notesPath = settings.notesPath) := by
  obtain ⟨found, loadedOrDefault, loads⟩ := exists_of_runSetAutoFix succeeded
  obtain rfl : settings = found := by
    rw [loadSettingsOrDefault, loaded] at loadedOrDefault
    exact Except.ok.inj loadedOrDefault
  refine ⟨_, loads, rfl, rfl, ?_, ?_⟩
  · obtain ⟨autoFix, _ | notes⟩ := settings
    · simp [Settings.expanded]
    · simp [Settings.expanded]
  · intro plain
    exact plain.map_expand environment

/-- A variable that is not set leaves the notes path alone both times. -/
theorem setAutoFix_expands_notesPath_again_without_value :
    let file : Path := { bytes := [0x63] }
    let tree := empty.add [] { bytes := file.bytes, valid := by decide }
      (.file (Text.encode "notes_path = \"$A/n\"".toList))
    let environment : Environment := { bindings := [] }
    let after := tree.run environment .empty
      { config := some file, verbosity := 0, command := .setAutoFix false }
    after.tree.loadSettings environment file =
      .ok (some { autoFixOnPaste := false, notesPath := some "$A/n".toList }) := by
  intro file tree environment after
  have loaded : tree.loadSettings environment file =
      .ok (some { notesPath := some "$A/n".toList }) := by decide +kernel
  have unset : environment.expand "$A/n".toList = "$A/n".toList := by decide +kernel
  obtain ⟨⟨autoFix, notesPath⟩, loads, rfl, rfl, -⟩ :=
    setAutoFix_expands_notesPath_again tree environment .empty (some file) 0 false _ loaded
      (by decide +kernel)
  rw [Option.map_some, unset] at loads
  exact loads

/-- A doubled dollar sign is read as one, and the next time as the start of a reference:
the notes path leads elsewhere once the switch has been set. -/
theorem setAutoFix_redirects_doubled_dollar :
    let file : Path := { bytes := [0x63] }
    let tree := empty.add [] { bytes := file.bytes, valid := by decide }
      (.file (Text.encode "notes_path = \"$$A/n\"".toList))
    let environment : Environment := { bindings := [("A".toList, "/b".toList)] }
    let after := tree.run environment .empty
      { config := some file, verbosity := 0, command := .setAutoFix false }
    tree.loadSettings environment file =
        .ok (some { notesPath := some "$A/n".toList }) ∧
      after.ending.status = 0 ∧
      after.tree.loadSettings environment file =
        .ok (some { autoFixOnPaste := false, notesPath := some "/b/n".toList }) := by
  intro file tree environment after
  decide +kernel

end FileTree

end TightLists
