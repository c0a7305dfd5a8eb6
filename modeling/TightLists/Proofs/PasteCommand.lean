import TightLists.Command.Run
import TightLists.Proofs.PasteGate

/-!
# The paste command

The command prints what a paste of its input inserts.  The bytes come from a scratch
editor when the fixer takes the paste over, and from the input itself when it does
not; `pastedBytes` says what they are without a word about either.  Whether fixing is
switched on is said by the option, or else by the settings file, which is only read
when the option is missing.
-/

namespace TightLists

/-- What a paste of some bytes inserts with fixing on paste switched on or off.  Bytes
that spell no text are inserted as they are. -/
def pastedBytes (autoFix : Bool) (input : ByteArray) : ByteArray :=
  match autoFix, Text.decode? input with
  | true, some text => text.tightened.encode
  | _, _ => input

/-- Whether the settings switch fixing on paste on.  Without a settings file it is on. -/
def autoFixFrom (found : Option Settings) : Bool :=
  (found.map Settings.autoFixOnPaste).getD true

theorem Editor.text_replaceSelection_empty (text : Text) :
    (Editor.empty.replaceSelection text).text = text := by
  simp [Editor.empty, Editor.ofText, replaceSelection, Text.takeBytes, Text.dropBytes]

namespace FileTree

/-- What the command prints is what is pasted, wherever it takes the bytes from. -/
theorem output_runPaste (tree : FileTree) (autoFix : Bool) (input : ByteArray) :
    (tree.runPaste { autoFix := autoFix } input).output = pastedBytes autoFix input := by
  have treated := PasteFixer.pastes { autoFix := autoFix } .empty (Text.decode? input)
  simp only [runPaste, Run.printing, pastedBytes]
  generalize (PasteFixer.paste _ _ _).outcome = outcome at treated ⊢
  generalize (PasteFixer.paste _ _ _).editor = after at treated ⊢
  generalize read : Text.decode? input = clipboard at treated ⊢
  cases treated with
  | disabled off =>
      obtain rfl : autoFix = false := off
      rfl
  | nothing on =>
      obtain rfl : autoFix = true := on
      rfl
  | empty on =>
      obtain rfl : autoFix = true := on
      simp only [tightened_nil]
      exact (Text.encode_of_decode? read).symm
  | @passedThrough text on missed =>
      obtain rfl : autoFix = true := on
      have unchanged := Text.tightened_eq_self_of_not_hasSpacedItems missed
      simp only [unchanged]
      exact (Text.encode_of_decode? read).symm
  | @replaced text on found =>
      obtain rfl : autoFix = true := on
      exact congrArg Text.encode (Editor.text_replaceSelection_empty text.tightened)

theorem exists_runPaste_eq (tree : FileTree) (autoFix : Bool) (input : ByteArray) :
    ∃ log, tree.runPaste { autoFix := autoFix } input =
      .printing tree (pastedBytes autoFix input) log := by
  rw [← output_runPaste tree]
  exact ⟨_, rfl⟩

theorem loadSettingsOrDefault_of_ok {tree : FileTree} {environment : Environment}
    {config : Path} {found : Option Settings}
    (loaded : tree.loadSettings environment config = .ok found) :
    ∃ settings, tree.loadSettingsOrDefault environment config = .ok settings ∧
      settings.autoFixOnPaste = autoFixFrom found := by
  refine ⟨found.getD {}, ?_, ?_⟩
  · rw [loadSettingsOrDefault, loaded]
    rfl
  · cases found <;> rfl

theorem loadSettingsOrDefault_of_error {tree : FileTree} {environment : Environment}
    {config : Path} {error : SettingsError}
    (unread : tree.loadSettings environment config = .error error) :
    tree.loadSettingsOrDefault environment config = .error error := by
  rw [loadSettingsOrDefault, unread]
  rfl

variable {tree : FileTree} {environment : Environment} {config : Option Path}

theorem exists_run_paste_of_option (tree : FileTree) (environment : Environment)
    (input : ByteArray) (config : Option Path) (verbosity : Nat) (autoFix : Bool) :
    ∃ log, tree.run environment input
        { config := config, verbosity := verbosity, command := .paste (some autoFix) } =
      .printing tree (pastedBytes autoFix input) log :=
  tree.exists_runPaste_eq autoFix input

theorem exists_run_paste_of_ok (input : ByteArray) (verbosity : Nat)
    {found : Option Settings}
    (loaded : tree.loadSettings environment (config.getD environment.settingsPath) =
      .ok found) :
    ∃ log, tree.run environment input
        { config := config, verbosity := verbosity, command := .paste none } =
      .printing tree (pastedBytes (autoFixFrom found) input) log := by
  obtain ⟨settings, loadedSettings, autoFix⟩ := loadSettingsOrDefault_of_ok loaded
  obtain ⟨log, printed⟩ := tree.exists_runPaste_eq settings.autoFixOnPaste input
  refine ⟨log, ?_⟩
  rw [← autoFix, ← printed]
  simp only [run, loadedSettings]

theorem run_paste_of_error (input : ByteArray) (verbosity : Nat) {error : SettingsError}
    (unread : tree.loadSettings environment (config.getD environment.settingsPath) =
      .error error) :
    tree.run environment input
        { config := config, verbosity := verbosity, command := .paste none } =
      .failing tree (.settings error) := by
  have unreadSettings := loadSettingsOrDefault_of_error unread
  simp only [run, unreadSettings]

/-- The paste command prints its input fixed where the option, or without it the
settings, switch fixing on, and as it is elsewhere.  With the option no tree and no
settings make a difference; without it, settings that cannot be loaded make the
command fail.  The tree is never changed. -/
theorem paste_prints_pastedBytes (environment : Environment) (input : ByteArray)
    (config : Option Path) (verbosity : Nat) :
    let file := config.getD environment.settingsPath
    let paste (tree : FileTree) (autoFix : Option Bool) : Run :=
      tree.run environment input
        { config := config, verbosity := verbosity, command := .paste autoFix }
    (∀ tree option autoFix,
      (option = some autoFix ∨
        option = none ∧ ∃ found, tree.loadSettings environment file = .ok found ∧
          autoFixFrom found = autoFix) →
      (paste tree option).ending = .finished 0 ∧
        (paste tree option).output = pastedBytes autoFix input) ∧
    (∀ first second autoFix,
      (paste first (some autoFix)).ending = (paste second (some autoFix)).ending ∧
        (paste first (some autoFix)).output = (paste second (some autoFix)).output) ∧
    (∀ tree error, tree.loadSettings environment file = .error error →
      (paste tree none).ending = .failed (.settings error) ∧
        (paste tree none).ending.status = 1 ∧ (paste tree none).output = .empty) ∧
    ∀ tree option, (paste tree option).tree = tree := by
  intro file paste
  have withOption (tree : FileTree) (autoFix : Bool) :
      ∃ log, paste tree (some autoFix) = .printing tree (pastedBytes autoFix input) log :=
    tree.exists_run_paste_of_option environment input config verbosity autoFix
  have withSettings (tree : FileTree) (found : Option Settings)
      (loaded : tree.loadSettings environment file = .ok found) :
      ∃ log, paste tree none =
        .printing tree (pastedBytes (autoFixFrom found) input) log :=
    exists_run_paste_of_ok input verbosity loaded
  have withoutSettings (tree : FileTree) (error : SettingsError)
      (unread : tree.loadSettings environment file = .error error) :
      paste tree none = .failing tree (.settings error) :=
    run_paste_of_error input verbosity unread
  refine ⟨?_, ?_, ?_, ?_⟩
  · intro tree option autoFix chosen
    rcases chosen with rfl | ⟨rfl, found, loaded, rfl⟩
    · obtain ⟨log, printed⟩ := withOption tree autoFix
      rw [printed]
      exact ⟨rfl, rfl⟩
    · obtain ⟨log, printed⟩ := withSettings tree found loaded
      rw [printed]
      exact ⟨rfl, rfl⟩
  · intro first second autoFix
    obtain ⟨log, firstPrinted⟩ := withOption first autoFix
    obtain ⟨otherLog, secondPrinted⟩ := withOption second autoFix
    rw [firstPrinted, secondPrinted]
    exact ⟨rfl, rfl⟩
  · intro tree error unread
    rw [withoutSettings tree error unread]
    exact ⟨rfl, rfl, rfl⟩
  · intro tree option
    cases option with
    | some autoFix =>
        obtain ⟨log, printed⟩ := withOption tree autoFix
        rw [printed]
        rfl
    | none =>
        cases loads : tree.loadSettings environment file with
        | ok found =>
            obtain ⟨log, printed⟩ := withSettings tree found loads
            rw [printed]
            rfl
        | error error =>
            rw [withoutSettings tree error loads]
            rfl

/-- With the option the input is fixed although the settings are malformed.  Without it
they make the command fail, and where there are none the input is fixed as well. -/
theorem paste_prints_pastedBytes_beside_malformed_settings :
    let file : Path := { bytes := [0x63] }
    let tree := empty.add [] { bytes := file.bytes, valid := by decide }
      (.file (Text.encode "auto_fix_on_paste = 1".toList))
    let input := Text.encode "\uFEFF- x\n\n- y".toList
    let paste (tree : FileTree) (option : Option Bool) : Run :=
      tree.run { bindings := [] } input
        { config := some file, verbosity := 0, command := .paste option }
    (paste tree (some true)).output = Text.encode "\uFEFF- x\n- y".toList ∧
      (paste tree none).ending.status = 1 ∧ (paste tree none).output = .empty ∧
      (paste empty none).output = Text.encode "\uFEFF- x\n- y".toList := by
  intro file tree input paste
  obtain ⟨prints, -, fails, -⟩ := paste_prints_pastedBytes { bindings := [] } input file 0
  have fixed : pastedBytes true input = Text.encode "\uFEFF- x\n- y".toList := by
    decide +kernel
  have given := prints tree (some true) true (.inl rfl)
  have missing := prints empty none true (.inr ⟨rfl, none, rfl, rfl⟩)
  have malformed := fails tree (.malformed file) (by decide +kernel)
  exact ⟨given.2.trans fixed, malformed.2.1, malformed.2.2, missing.2.trans fixed⟩

end FileTree

end TightLists
