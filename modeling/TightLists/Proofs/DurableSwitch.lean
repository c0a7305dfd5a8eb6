import TightLists.Proofs.PasteCommand
import TightLists.Proofs.SavedSettings

/-!
# The switch stays where it was set

Whether fixing on paste is on is said by the text of the settings file alone
(`HasSwitch`); the environment only has a say in the notes path.  So a switch that has
been set counts for as long as the same bytes are read from the file, whatever else
becomes of the tree, and when it is set several times the last time counts.
-/

namespace TightLists

namespace FileTree

variable {tree other before after : FileTree} {environment : Environment} {file : Path}
  {enabled : Bool} {switches : List Bool}

/-- The settings file holds a text, and that text has the switch set one way. -/
def HasSwitch (tree : FileTree) (file : Path) (enabled : Bool) : Prop :=
  ∃ text settings, tree.readText file = .ok text ∧ Settings.read? text = some settings ∧
    settings.autoFixOnPaste = enabled

/-- Runs of the program that set the switch in a settings file, one after the other and
all of them with success.  In between the tree may change in every way that leaves what
is read from the file. -/
inductive SetInTurn (file : Path) (before : FileTree) : List Bool → FileTree → Prop where
  | start : SetInTurn file before [] before
  | set {switches : List Bool} {tree : FileTree} (turns : SetInTurn file before switches tree)
      (environment : Environment) (input : ByteArray) (verbosity : Nat) (enabled : Bool)
      (succeeded : (tree.run environment input
        { config := some file, verbosity := verbosity,
          command := .setAutoFix enabled }).ending.status = 0) :
      SetInTurn file before (switches ++ [enabled])
        (tree.run environment input
          { config := some file, verbosity := verbosity,
            command := .setAutoFix enabled }).tree
  | meanwhile {switches : List Bool} {tree other : FileTree}
      (turns : SetInTurn file before switches tree)
      (same : other.readBytes file = tree.readBytes file) :
      SetInTurn file before switches other

/-! ## What the settings file says -/

theorem readText_congr (same : other.readBytes file = tree.readBytes file) :
    other.readText file = tree.readText file := by
  rw [readText, same]
  rfl

namespace HasSwitch

theorem congr (switch : tree.HasSwitch file enabled)
    (same : other.readBytes file = tree.readBytes file) : other.HasSwitch file enabled := by
  rw [HasSwitch, readText_congr same]
  exact switch

theorem exists_loadSettings (switch : tree.HasSwitch file enabled)
    (environment : Environment) :
    ∃ settings, tree.loadSettings environment file = .ok (some settings) ∧
      settings.autoFixOnPaste = enabled := by
  obtain ⟨text, settings, read, isSettings, isEnabled⟩ := switch
  exact ⟨settings.expanded environment, loadSettings_of_readText read isSettings, isEnabled⟩

theorem of_writeText {settings : Settings}
    (written : tree.writeText file settings.write = .ok after) :
    after.HasSwitch file settings.autoFixOnPaste :=
  ⟨_, settings, readText_of_writeText written, settings.read?_write, rfl⟩

end HasSwitch

theorem exists_of_loadSettingsOrDefault {settings : Settings}
    (loaded : tree.loadSettingsOrDefault environment file = .ok settings) :
    ∃ found, tree.loadSettings environment file = .ok found ∧ found.getD {} = settings := by
  rw [loadSettingsOrDefault] at loaded
  cases loads : tree.loadSettings environment file with
  | ok found =>
      rw [loads] at loaded
      exact ⟨found, rfl, Except.ok.inj loaded⟩
  | error error =>
      rw [loads] at loaded
      cases loaded

/-! ## Setting the switch -/

theorem hasSwitch_runSetAutoFix
    (succeeded : (tree.runSetAutoFix environment file enabled).ending.status = 0) :
    (tree.runSetAutoFix environment file enabled).tree.HasSwitch file enabled := by
  obtain ⟨settings, held, -, -, writes⟩ :=
    (tree.switching_runSetAutoFix environment file enabled).exists_of_succeeded succeeded
  exact .of_writeText writes

/-- The last time counts: setting the switch forgets how it was set before, and nothing
that happens meanwhile sets it. -/
theorem SetInTurn.hasSwitch (turns : SetInTurn file before switches after)
    (last : switches.getLast? = some enabled) : after.HasSwitch file enabled := by
  induction turns with
  | start => cases last
  | set turns environment input verbosity latest succeeded induction =>
      rw [List.getLast?_concat] at last
      obtain rfl := Option.some.inj last
      exact hasSwitch_runSetAutoFix succeeded
  | meanwhile turns same induction => exact (induction last).congr same

/-- Once the switch has been set, loading the settings finds it set, and finds the notes
path that was loaded before, expanded once more.  However often it is set, and whatever
else happens to the tree, the last time decides about a paste without an option: its
input comes out fixed when the switch was set on, and as it is when it was set off. -/
theorem last_setAutoFix_decides (file : Path) :
    (∀ (tree : FileTree) environment input verbosity enabled,
      let run := tree.run environment input
        { config := some file, verbosity := verbosity, command := .setAutoFix enabled }
      run.ending.status = 0 →
      ∃ found settings, tree.loadSettings environment file = .ok found ∧
        run.tree.loadSettings environment file = .ok (some settings) ∧
        settings.autoFixOnPaste = enabled ∧
        settings.notesPath = (found.bind Settings.notesPath).map environment.expand) ∧
    ∀ (before : FileTree) switches (after : FileTree) enabled,
      SetInTurn file before switches after → switches.getLast? = some enabled →
      ∀ environment input verbosity,
        let paste := after.run environment input
          { config := some file, verbosity := verbosity, command := .paste none }
        paste.ending = .finished 0 ∧ paste.tree = after ∧
          (enabled = true → ∀ text, Text.decode? input = some text →
            paste.output = text.tightened.encode) ∧
          (enabled = false → paste.output = input) := by
  constructor
  · intro tree environment input verbosity enabled run succeeded
    obtain ⟨settings, loadedOrDefault, loads⟩ := exists_of_runSetAutoFix succeeded
    obtain ⟨found, loaded, rfl⟩ := exists_of_loadSettingsOrDefault loadedOrDefault
    refine ⟨found, _, loaded, loads, rfl, ?_⟩
    cases found <;> rfl
  · intro before switches after enabled turns last environment input verbosity paste
    obtain ⟨settings, loads, isEnabled⟩ :=
      (turns.hasSwitch last).exists_loadSettings environment
    obtain ⟨log, printed⟩ : ∃ log,
        paste = .printing after (pastedBytes (autoFixFrom (some settings)) input) log :=
      exists_run_paste_of_ok input verbosity loads
    have switch : autoFixFrom (some settings) = enabled := isEnabled
    rw [printed, switch]
    refine ⟨rfl, rfl, ?_, ?_⟩
    · intro isOn text isText
      simp only [Run.printing, pastedBytes, isOn, isText]
    · intro isOff
      simp only [Run.printing, pastedBytes, isOff]

/-- A switch that is set off, then on again after another file has come into the tree, is
on for a paste.  The first time, a notes path with a quote and a line break in it is
carried over. -/
theorem last_setAutoFix_decides_off_then_on :
    let file : Path := { bytes := [0x63] }
    let text : Text := "notes_path = \"a\\\"\\nb\"".toList
    let before := empty.add [] { bytes := file.bytes, valid := by decide } (.file text.encode)
    let environment : Environment := { bindings := [] }
    let set (tree : FileTree) (enabled : Bool) : Run := tree.run environment .empty
      { config := some file, verbosity := 0, command := .setAutoFix enabled }
    let off := set before false
    let meanwhile :=
      off.tree.add [] { bytes := [0x64], valid := by decide } (.file .empty)
    let on := set meanwhile true
    let paste := on.tree.run environment (Text.encode "- x\n\n- y".toList)
      { config := some file, verbosity := 0, command := .paste none }
    off.tree.loadSettings environment file =
        .ok (some { autoFixOnPaste := false, notesPath := some "a\"\nb".toList }) ∧
      paste.ending = .finished 0 ∧ paste.output = Text.encode "- x\n- y".toList := by
  intro file text before environment set off meanwhile on paste
  obtain ⟨carries, decides⟩ := last_setAutoFix_decides file
  have offSucceeds : off.ending.status = 0 := by decide +kernel
  have onSucceeds : on.ending.status = 0 := by decide +kernel
  have sameBytes : meanwhile.readBytes file = off.tree.readBytes file := by decide +kernel
  have turns : SetInTurn file before [false, true] on.tree := by
    have first : SetInTurn file before [false] off.tree :=
      .set .start environment .empty 0 false offSucceeds
    exact .set (first.meanwhile sameBytes) environment .empty 0 true onSucceeds
  have loaded : before.loadSettings environment file =
      .ok (some { notesPath := some "a\"\nb".toList }) := by decide +kernel
  have plain : environment.expand "a\"\nb".toList = "a\"\nb".toList := by decide +kernel
  obtain ⟨found, settings, loads, loadsAgain, isOff, notes⟩ :=
    carries before environment .empty 0 false offSucceeds
  obtain rfl := Except.ok.inj (loaded.symm.trans loads)
  rw [Option.bind_some, Option.map_some, plain] at notes
  obtain ⟨autoFix, notesPath⟩ := settings
  subst isOff notes
  obtain ⟨ending, -, fixed, -⟩ := decides before [false, true] on.tree true turns rfl
    environment (Text.encode "- x\n\n- y".toList) 0
  refine ⟨loadsAgain, ending, ?_⟩
  have written := fixed rfl "- x\n\n- y".toList (Text.decode?_encode _)
  have tight : Text.tightened "- x\n\n- y".toList = "- x\n- y".toList := by decide +kernel
  exact written.trans (congrArg Text.encode tight)

end FileTree

end TightLists
