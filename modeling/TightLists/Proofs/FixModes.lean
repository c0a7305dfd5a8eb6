import TightLists.Command.Run
import TightLists.Proofs.Batches

/-!
# The modes of the fix command

Writing, checking and printing agree: a check exits as a write does, except that it tells
by its status whether there is something to write, and what is printed for a single file
is what a write leaves there.
-/

namespace TightLists

/-- What a check prints when none of the notes it read needs fixing. -/
def cleanCheckOutput (count : Nat) (errors : List NotesError) : String :=
  let failures :=
    if errors.isEmpty then "" else s!"{errors.length} path(s) could not be processed\n"
  String.join (errors.map NotesError.line ++
    [s!"0 of {count} file(s) need fixing\n" ++ failures])

namespace Batch

theorem status_eq_two_iff (batch : Batch) (mode : WriteMode) :
    batch.status mode = 2 ↔ batch.errors ≠ [] := by
  rw [status]
  by_cases noErrors : batch.errors = []
  · rw [if_neg (not_not.mpr noErrors)]
    split <;> simp [noErrors]
  · simp [noErrors]

theorem status_inPlace_of_errors_eq_nil {batch : Batch} (noErrors : batch.errors = []) :
    batch.status .inPlace = 0 := by
  simp [status, noErrors]

theorem status_dryRun_of_errors_eq_nil {batch : Batch} (noErrors : batch.errors = []) :
    batch.status .dryRun = if batch.changedCount = 0 then 0 else 1 := by
  by_cases none : batch.changedCount = 0
  · simp [status, noErrors, none]
  · simp [status, noErrors, none, Nat.pos_of_ne_zero none]

theorem output_dryRun_of_changedCount_eq_zero {batch : Batch}
    (none : batch.changedCount = 0) :
    batch.output .dryRun = cleanCheckOutput batch.reports.length batch.errors := by
  have noLines : batch.reports.filter FileReport.changed = [] := by
    refine List.filter_eq_nil_iff.mpr ?_
    exact List.countP_eq_zero.mp none
  have front : toString 0 ++ toString " of " = toString "0 of " := rfl
  have back : toString " file(s) " ++ (toString "need fixing" ++ toString "\n") =
      toString " file(s) need fixing\n" := rfl
  rw [output, noLines, summary, none, front]
  simp only [cleanCheckOutput, String.append_assoc, back, List.map_nil, List.nil_append]

end Batch

namespace FileTree

variable (tree : FileTree)

theorem failsWith_iff_of_not_directory {path : Path}
    (file : tree.leadsToDirectory path = false) {error : NotesError} :
    tree.FailsWith path error ↔ tree.readNote path = .error error := by
  have alone := tree.expansion_of_not_directory file
  constructor
  · intro fails
    cases fails with
    | unlisted failed =>
        rw [alone] at failed
        cases failed
    | unread listed member failed =>
        rw [alone] at listed
        cases listed
        obtain rfl := List.mem_singleton.mp member
        exact failed
  · intro unread
    exact .unread alone List.mem_cons_self unread

/-- Whatever the mode, a batch has errors exactly if one of its paths fails. -/
theorem errors_fixPaths_ne_nil_iff (mode : WriteMode) (paths : List Path) :
    (tree.fixPaths mode paths).errors ≠ [] ↔
      ∃ path ∈ paths, ∃ error, tree.FailsWith path error := by
  rw [errors_fixPaths, Ne, List.eq_nil_iff_forall_not_mem]
  simp only [not_forall, not_not, mem_errors_fixPaths_iff]
  constructor
  · rintro ⟨error, path, given, fails⟩
    exact ⟨path, given, error, fails⟩
  · rintro ⟨path, given, error, fails⟩
    exact ⟨error, path, given, fails⟩

/-- A dry run finds nothing to fix exactly where a real run changes nothing. -/
theorem changedCount_dryRun_eq_zero_iff (paths : List Path) :
    (tree.fixPaths .dryRun paths).changedCount = 0 ↔
      (tree.fixPaths .inPlace paths).tree = tree := by
  rw [tree_fixPaths_inPlace, tightenedAt_eq_self_iff, Batch.changedCount,
    List.countP_eq_zero]
  constructor
  · intro none place text reached holds
    obtain ⟨⟨note, found, leads⟩, -⟩ := (tree.reaches_reported_iff holds).mp reached
    have read := (tree.readNote_eq_ok_iff).mpr ⟨place, leads, holds⟩
    have reported := (tree.mem_reports_fixPaths_iff).mpr ⟨note, text, found, read, rfl⟩
    refine Classical.byContradiction fun loose => ?_
    exact none _ reported ((Text.changed_tighten_iff text).mpr loose)
  · intro tight report reported changed
    obtain ⟨note, text, found, read, rfl⟩ := (tree.mem_reports_fixPaths_iff).mp reported
    obtain ⟨place, leads, holds⟩ := (tree.readNote_eq_ok_iff).mp read
    have reached := (tree.reaches_reported_iff holds).mpr ⟨⟨note, found, leads⟩, holds⟩
    exact (Text.changed_tighten_iff text).mp changed (tight place text reached holds)

theorem status_fixPaths_eq_two_iff (mode : WriteMode) (paths : List Path) :
    (tree.fixPaths mode paths).status mode = 2 ↔
      ∃ path ∈ paths, ∃ error, tree.FailsWith path error :=
  (Batch.status_eq_two_iff _ mode).trans (tree.errors_fixPaths_ne_nil_iff mode paths)

theorem errors_fixPaths_eq_nil {paths : List Path}
    (succeeds : ¬∃ path ∈ paths, ∃ error, tree.FailsWith path error) (mode : WriteMode) :
    (tree.fixPaths mode paths).errors = [] := by
  refine Classical.byContradiction fun errors => succeeds ?_
  exact (tree.errors_fixPaths_ne_nil_iff mode paths).mp errors

/-- Where no path fails, the status of a check tells whether a write changes the tree. -/
theorem status_fixPaths_dryRun_iff {paths : List Path}
    (succeeds : ¬∃ path ∈ paths, ∃ error, tree.FailsWith path error) :
    ((tree.fixPaths .dryRun paths).status .dryRun = 1 ↔
        (tree.fixPaths .inPlace paths).tree ≠ tree) ∧
      ((tree.fixPaths .dryRun paths).status .dryRun = 0 ↔
        (tree.fixPaths .inPlace paths).tree = tree) := by
  have noErrors := tree.errors_fixPaths_eq_nil succeeds .dryRun
  rw [Batch.status_dryRun_of_errors_eq_nil noErrors, Ne,
    ← tree.changedCount_dryRun_eq_zero_iff paths]
  by_cases none : (tree.fixPaths .dryRun paths).changedCount = 0
  · simp [none]
  · simp [none]

/-! ## A single file -/

theorem readBytes_fixPaths_inPlace {path : Path} {text : Text}
    (file : tree.leadsToDirectory path = false) (read : tree.readNote path = .ok text) :
    (tree.fixPaths .inPlace [path]).tree.readBytes path = .ok text.tightened.encode := by
  obtain ⟨place, leads, holds⟩ := (tree.readNote_eq_ok_iff).mp read
  have found : tree.Finds [path] path :=
    ⟨path, List.mem_cons_self, [path], tree.expansion_of_not_directory file,
      List.mem_cons_self⟩
  have target : tree.IsTarget [path] place text := ⟨⟨path, found, leads⟩, holds⟩
  refine readBytes_of_file ?_ (tree.entryAt?_fixPaths_of_isTarget target)
  rw [tree_fixPaths_inPlace, tightenedAt, placeOf?_mapContents, leads]

theorem status_fixPaths_singleton_eq_two_iff {path : Path}
    (file : tree.leadsToDirectory path = false) :
    (tree.fixPaths .inPlace [path]).status .inPlace = 2 ↔
      ∃ error, tree.readNote path = .error error := by
  simp only [status_fixPaths_eq_two_iff, List.mem_singleton, exists_eq_left,
    tree.failsWith_iff_of_not_directory file]

theorem runPrint_of_status_ne_two {path : Path}
    (file : tree.leadsToDirectory path = false)
    (fixed : (tree.fixPaths .inPlace [path]).status .inPlace ≠ 2) :
    ∃ text : Text,
      tree.runPrint [path] = .printing tree text.tightened.encode text.tighten.log ∧
      (tree.fixPaths .inPlace [path]).tree.readBytes path = .ok text.tightened.encode := by
  cases read : tree.readNote path with
  | ok text =>
      refine ⟨text, ?_, tree.readBytes_fixPaths_inPlace file read⟩
      rw [runPrint, read]
  | error error =>
      have failed := (tree.status_fixPaths_singleton_eq_two_iff file).mpr ⟨error, read⟩
      exact absurd failed fixed

theorem runPrint_of_status_eq_two {path : Path}
    (file : tree.leadsToDirectory path = false)
    (failed : (tree.fixPaths .inPlace [path]).status .inPlace = 2) :
    ∃ error, tree.runPrint [path] = .failing tree (.unreadableNote error) := by
  obtain ⟨error, unread⟩ := (tree.status_fixPaths_singleton_eq_two_iff file).mp failed
  refine ⟨error, ?_⟩
  rw [runPrint, unread]

/-! ## Runs of the command -/

theorem runFix_of_ne_nil (environment : Environment) (config : Path) (mode : FixMode)
    {paths : List Path} (given : paths ≠ []) :
    tree.runFix environment config mode paths =
      match mode with
      | .print => tree.runPrint paths
      | .check => (tree.fixPaths .dryRun paths).run .dryRun
      | .write => (tree.fixPaths .inPlace paths).run .inPlace := by
  cases paths with
  | nil => exact absurd rfl given
  | cons path paths => rfl

/-- Checking, writing and printing agree.  A check and a write exit with 2 on the same
paths, those of which some path fails.  On all others a write exits with 0, and a check
with 1 or 0 as a write would change the tree or not.  A check after a write finds
nothing to fix.  What is printed for a single file is what a write leaves in it, and
nothing is printed where a write fails. -/
theorem fix_modes_agree (environment : Environment) (input : ByteArray)
    (config : Option Path) (verbosity : Nat) :
    let fix (tree : FileTree) (mode : FixMode) (paths : List Path) : Run :=
      tree.run environment input
        { config := config, verbosity := verbosity, command := .fix mode paths }
    (∀ paths, paths ≠ [] →
      let write := fix tree .write paths
      let check := fix tree .check paths
      (check.ending.status = 2 ↔ write.ending.status = 2) ∧
        (write.ending.status = 2 ↔ ∃ path ∈ paths, ∃ error, tree.FailsWith path error) ∧
        (write.ending.status ≠ 2 →
          write.ending.status = 0 ∧
            (check.ending.status = 1 ↔ write.tree ≠ tree) ∧
            (check.ending.status = 0 ↔ write.tree = tree)) ∧
        ∃ count errors, (fix write.tree .check paths).output =
          (cleanCheckOutput count errors).toUTF8) ∧
      ∀ path, tree.leadsToDirectory path = false →
        let write := fix tree .write [path]
        let print := fix tree .print [path]
        (write.ending.status = 0 →
          print.ending.status = 0 ∧ print.tree = tree ∧
            write.tree.readBytes path = .ok print.output) ∧
          (write.ending.status = 2 →
            (∃ failure, print.ending = .failed failure) ∧ print.ending.status = 1 ∧
              print.output = .empty) := by
  intro fix
  constructor
  · intro paths given
    have fixes (tree : FileTree) (mode : FixMode) :=
      tree.runFix_of_ne_nil environment (config.getD environment.settingsPath) mode given
    simp only [fix, run, fixes]
    have writeFails := tree.status_fixPaths_eq_two_iff .inPlace paths
    have checkFails := tree.status_fixPaths_eq_two_iff .dryRun paths
    refine ⟨checkFails.trans writeFails.symm, writeFails, ?_, ?_⟩
    · intro notTwo
      have succeeds : ¬∃ path ∈ paths, ∃ error, tree.FailsWith path error := fun fails =>
        notTwo (writeFails.mpr fails)
      have noErrors := tree.errors_fixPaths_eq_nil succeeds .inPlace
      exact ⟨Batch.status_inPlace_of_errors_eq_nil noErrors,
        tree.status_fixPaths_dryRun_iff succeeds⟩
    · have after := tree.tree_fixPaths_fixPaths paths
      have nothing := (changedCount_dryRun_eq_zero_iff _ paths).mpr after
      have output := Batch.output_dryRun_of_changedCount_eq_zero nothing
      exact ⟨_, _, congrArg String.toUTF8 output⟩
  · intro path file write print
    have status : write.ending.status = (tree.fixPaths .inPlace [path]).status .inPlace := rfl
    have prints : print = tree.runPrint [path] := rfl
    rw [status, prints]
    constructor
    · intro fixed
      obtain ⟨text, printed, holds⟩ :=
        tree.runPrint_of_status_ne_two file (by rw [fixed]; decide)
      rw [printed]
      exact ⟨rfl, rfl, holds⟩
    · intro failed
      obtain ⟨error, unread⟩ := tree.runPrint_of_status_eq_two file failed
      rw [unread]
      exact ⟨⟨_, rfl⟩, rfl, rfl⟩

/-- With a note that has something to remove, a check exits with 1, a write changes the
tree, and what is printed is what the write leaves. -/
theorem fix_modes_agree_about_loose_note :
    let note : Path := { bytes := [0x61] }
    let tree := empty.add [] { bytes := note.bytes, valid := by decide }
      (.file (Text.encode "- x\n\n- y".toList))
    let fix (mode : FixMode) : Run :=
      tree.run { bindings := [] } .empty
        { config := none, verbosity := 0, command := .fix mode [note] }
    (fix .check).ending.status = 1 ∧ (fix .write).tree ≠ tree ∧
      (fix .write).tree.readBytes note = .ok (fix .print).output := by
  intro note tree fix
  obtain ⟨ofPaths, ofFile⟩ := tree.fix_modes_agree { bindings := [] } .empty none 0
  have checked : (fix .check).ending.status = 1 := by decide +kernel
  have written : (fix .write).ending.status = 0 := by decide +kernel
  have changes := (ofPaths [note] (by decide)).2.2.1 (by decide +kernel)
  have prints := (ofFile note (by decide +kernel)).1 written
  exact ⟨checked, changes.2.1.mp checked, prints.2.2⟩

end FileTree

end TightLists
