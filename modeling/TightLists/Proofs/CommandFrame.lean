import TightLists.Proofs.Batches
import TightLists.Proofs.SavedSettings

/-!
# What a command leaves alone

Most commands have the tree they ran on left at their end, whatever comes of them
(`LeavesTree`).  Notes are only written once the paths to fix are known, and nothing makes
such a run fail any more.  So the one command that can fail after it has changed
something is the one that sets the switch: when its settings cannot be saved, directories
that were made for them stay behind.
-/

namespace TightLists

/-- Commands that are asked for what they print and not for what they change. -/
def Command.onlyReads : Command → Bool
  | .fix .write _ | .setAutoFix _ => false
  | .fix .check _ | .fix .print _ | .paste _ | .showSettings => true

namespace FileTree

variable {tree : FileTree} {environment : Environment} {config : Path} {run : Run}

/-- A run that ends on the tree it began with, and that prints nothing when it fails. -/
inductive LeavesTree (tree : FileTree) : Run → Prop where
  | finished (output : ByteArray) (status : Nat) (log : Log) :
      LeavesTree tree
        { tree := tree, output := output, ending := .finished status, log := log }
  | failed (failure : Failure) : LeavesTree tree (.failing tree failure)

theorem LeavesTree.tree_eq (leaves : tree.LeavesTree run) : run.tree = tree := by
  cases leaves <;> rfl

theorem LeavesTree.output_eq_empty (leaves : tree.LeavesTree run) {failure : Failure}
    (fails : run.ending = .failed failure) : run.output = .empty := by
  cases leaves with
  | finished output status log => cases fails
  | failed failure => rfl

theorem tree_fixPaths_dryRun (tree : FileTree) (paths : List Path) :
    (tree.fixPaths .dryRun paths).tree = tree :=
  tree.tree_fixPaths .dryRun paths

/-! ## Commands that only read -/

theorem leavesTree_runPrint (tree : FileTree) (paths : List Path) :
    tree.LeavesTree (tree.runPrint paths) := by
  rw [runPrint.eq_def]
  split
  · split
    · exact .finished _ 0 _
    · exact .failed _
  · exact .failed .notOneFile

theorem leavesTree_runFix {mode : FixMode} (reads : mode ≠ .write) (paths : List Path) :
    tree.LeavesTree (tree.runFix environment config mode paths) := by
  rw [runFix]
  split
  · exact .failed _
  · rename_i paths _
    cases mode with
    | write => exact absurd rfl reads
    | print => exact tree.leavesTree_runPrint paths
    | check =>
        rw [Batch.run, tree_fixPaths_dryRun]
        exact .finished _ _ _

theorem leavesTree_runShow : tree.LeavesTree (tree.runShow environment config) := by
  rw [runShow]
  split
  · exact .finished _ 0 _
  · exact .failed _

theorem leavesTree_run_of_onlyReads (input : ByteArray) {invocation : Invocation}
    (reads : invocation.command.onlyReads = true) :
    tree.LeavesTree (tree.run environment input invocation) := by
  obtain ⟨config, verbosity, command⟩ := invocation
  cases command with
  | fix mode paths =>
      apply leavesTree_runFix
      rintro rfl
      cases reads
  | paste autoFix =>
      cases autoFix with
      | some autoFix => exact .finished _ 0 _
      | none =>
          simp only [FileTree.run]
          split
          · exact .finished _ 0 _
          · exact .failed _
  | showSettings => exact leavesTree_runShow
  | setAutoFix enabled => cases reads

/-! ## Commands that write -/

/-- Once notes are being written, a run finishes: what goes wrong with one of them is
part of what is printed. -/
theorem leavesTree_runFix_of_failed {mode : FixMode} {paths : List Path}
    {failure : Failure}
    (fails : (tree.runFix environment config mode paths).ending = .failed failure) :
    tree.LeavesTree (tree.runFix environment config mode paths) := by
  by_cases writes : mode = .write
  · subst writes
    rw [runFix] at fails ⊢
    split at fails
    · exact .failed _
    · cases fails
  · exact leavesTree_runFix writes paths

theorem leavesTree_run_of_failed {input : ByteArray} {invocation : Invocation}
    {failure : Failure}
    (noSwitch : ∀ enabled, invocation.command ≠ .setAutoFix enabled)
    (fails : (tree.run environment input invocation).ending = .failed failure) :
    tree.LeavesTree (tree.run environment input invocation) := by
  obtain ⟨config, verbosity, command⟩ := invocation
  cases command with
  | fix mode paths => exact leavesTree_runFix_of_failed fails
  | paste autoFix => exact leavesTree_run_of_onlyReads input rfl
  | showSettings => exact leavesTree_run_of_onlyReads input rfl
  | setAutoFix enabled => exact absurd rfl (noSwitch enabled)

theorem switching_run (tree : FileTree) (environment : Environment) (input : ByteArray)
    {invocation : Invocation} {enabled : Bool}
    (isSwitch : invocation.command = .setAutoFix enabled) :
    tree.Switching environment (invocation.config.getD environment.settingsPath) enabled
      (tree.run environment input invocation) := by
  obtain ⟨config, verbosity, command⟩ := invocation
  subst isSwitch
  exact tree.switching_runSetAutoFix environment _ enabled

namespace Switching

variable {enabled : Bool}

theorem of_failed (switching : tree.Switching environment config enabled run)
    {failure : Failure} (fails : run.ending = .failed failure) :
    run.output = .empty ∧ tree.OnlyAddsDirectories run.tree ∧
      (run.tree = tree ∨ ∃ cause, failure = .saving config cause) := by
  cases switching with
  | unread _ => exact ⟨rfl, .refl tree, .inl rfl⟩
  | unsaved adds cause =>
      cases fails
      exact ⟨rfl, adds, .inr ⟨cause, rfl⟩⟩
  | saved _ _ _ output => cases fails

theorem exists_onlyWrites (switching : tree.Switching environment config enabled run)
    (succeeded : run.ending.status = 0) :
    ∃ place content, tree.OnlyWrites place content run.tree ∧
      run.tree.placeOf? config = some place ∧
      ∀ earlier, tree.placeOf? config = some earlier → earlier = place := by
  obtain ⟨settings, held, -, adds, writes⟩ := switching.exists_of_succeeded succeeded
  obtain ⟨place, only, leads, before⟩ := exists_onlyWrites_of_writeBytes writes
  refine ⟨place, _, only.after_onlyAddsDirectories adds, leads, ?_⟩
  intro earlier earlierLeads
  exact before earlier (adds.growsInto.placeOf? adds.working earlierLeads)

end Switching

/-- A run that fails has printed nothing, and nothing but new directories tells the tree
it leaves from the one it began with; there are such directories only where settings
could not be saved.  A command that only reads leaves the tree as it was, however it
ends.  Setting the switch writes the settings file, which is where its path leads in the
end, and where it led before if it led anywhere; next to that file only directories are
new. -/
theorem run_frame (tree : FileTree) (environment : Environment) (input : ByteArray)
    (invocation : Invocation) :
    let config := invocation.config.getD environment.settingsPath
    let run := tree.run environment input invocation
    (∀ failure, run.ending = .failed failure →
      run.ending.status = 1 ∧ run.output = .empty ∧ tree.OnlyAddsDirectories run.tree ∧
        (run.tree = tree ∨ ∃ enabled cause, invocation.command = .setAutoFix enabled ∧
          failure = .saving config cause)) ∧
    (invocation.command.onlyReads = true → run.tree = tree) ∧
    ∀ enabled, invocation.command = .setAutoFix enabled → run.ending.status = 0 →
      ∃ place content, tree.OnlyWrites place content run.tree ∧
        run.tree.placeOf? config = some place ∧
        ∀ earlier, tree.placeOf? config = some earlier → earlier = place := by
  intro config run
  refine ⟨?_, ?_, ?_⟩
  · intro failure fails
    have status : run.ending.status = 1 := by
      rw [fails]
      rfl
    by_cases isSwitch : ∃ enabled, invocation.command = .setAutoFix enabled
    · obtain ⟨enabled, isSwitch⟩ := isSwitch
      have switching := tree.switching_run environment input isSwitch
      obtain ⟨silent, adds, same | ⟨cause, unsaved⟩⟩ := switching.of_failed fails
      · exact ⟨status, silent, adds, .inl same⟩
      · exact ⟨status, silent, adds, .inr ⟨enabled, cause, isSwitch, unsaved⟩⟩
    · have leaves : tree.LeavesTree run :=
        leavesTree_run_of_failed (not_exists.mp isSwitch) fails
      have same := leaves.tree_eq
      have adds : tree.OnlyAddsDirectories run.tree := by
        rw [same]
        exact .refl tree
      exact ⟨status, leaves.output_eq_empty fails, adds, .inl same⟩
  · intro reads
    exact (leavesTree_run_of_onlyReads input reads).tree_eq
  · intro enabled isSwitch succeeded
    exact (tree.switching_run environment input isSwitch).exists_onlyWrites succeeded

/-- A path through a directory that is still to be made leads nowhere at first.  Setting
the switch there makes the directory and then writes over the file beside it.  Where the
path ends in a slash, the directory is all that is left of the attempt. -/
theorem run_frame_through_new_directory :
    let name : Name := { bytes := [0x63], valid := by decide }
    let made : Name := { bytes := [0x64], valid := by decide }
    let text : Text := "auto_fix_on_paste = true".toList
    let tree := empty.add [] name (.file text.encode)
    let run (path : String) (command : Command) : Run :=
      tree.run { bindings := [] } .empty
        { config := some (.ofText path.toList), verbosity := 0, command := command }
    let through := run "d/../c" (.setAutoFix false)
    let slashed := run "d/c/" (.setAutoFix false)
    (run "d/../c" .showSettings).tree = tree ∧
      tree.placeOf? (.ofText "d/../c".toList) = none ∧
      (∃ content, tree.OnlyWrites [name] content through.tree) ∧
      through.tree.isDirectoryAt [made] = true ∧
      slashed.ending.status = 1 ∧ slashed.output = .empty ∧
      slashed.tree.entryAt? [name] = some (.file text.encode) ∧
      slashed.tree.isDirectoryAt [made] = true := by
  intro name made text tree run through slashed
  have shown := (tree.run_frame { bindings := [] } .empty
    { config := some (.ofText "d/../c".toList), verbosity := 0,
      command := .showSettings }).2.1 rfl
  obtain ⟨place, content, only, leads, -⟩ := (tree.run_frame { bindings := [] } .empty
    { config := some (.ofText "d/../c".toList), verbosity := 0,
      command := .setAutoFix false }).2.2 false rfl (by decide +kernel)
  obtain ⟨status, silent, adds, -⟩ := (tree.run_frame { bindings := [] } .empty
    { config := some (.ofText "d/c/".toList), verbosity := 0,
      command := .setAutoFix false }).1
    (.saving (.ofText "d/c/".toList) .isDirectory) (by decide +kernel)
  have beside : through.tree.placeOf? (.ofText "d/../c".toList) = some [name] := by
    decide +kernel
  obtain rfl : place = [name] := Option.some.inj (leads.symm.trans beside)
  have kept : slashed.tree.entryAt? [name] = some (.file text.encode) := by
    apply adds.growsInto
    rw [entryAt?_add rfl rfl, if_pos rfl]
  refine ⟨shown, ?_, ⟨content, only⟩, ?_, status, silent, kept, ?_⟩
  · decide +kernel
  · decide +kernel
  · decide +kernel

end FileTree

end TightLists
