import TightLists.Proofs.Tasks

/-!
# Dry runs and real runs of a batch

The reports of a real run are those of a dry run, up to the notes that come again: what
there was to remove has been removed by then.

The targets of a batch are the texts that its paths reach in the tree that it begins
with.  A batch that writes tightens each of them and changes nothing else
(`fixPaths_inPlace_tightens_targets`), so only the set of targets matters: not in which
order the paths come, how often, or through which links.
-/

namespace TightLists

namespace FileTree

variable (tree : FileTree)

/-! ## Reports -/

theorem getElem?_reportsAfter (seen : List Path) (reports : List FileReport)
    (position : Nat) :
    (tree.reportsAfter seen reports)[position]? =
      reports[position]?.map
        (tree.reportAfter (seen ++ (reports.take position).map FileReport.path)) := by
  induction reports generalizing seen position with
  | nil => simp [reportsAfter]
  | cons report reports induction =>
      cases position with
      | zero => simp [reportsAfter]
      | succ position => simp [reportsAfter, induction]

theorem map_path_reportsAfter (seen : List Path) (reports : List FileReport) :
    (tree.reportsAfter seen reports).map FileReport.path = reports.map FileReport.path := by
  induction reports generalizing seen with
  | nil => rfl
  | cons report reports induction =>
      rw [reportsAfter, List.map_cons, List.map_cons, path_reportAfter, induction]

/-- A dry run leaves the tree alone and predicts the real run: the same errors and
reports for the same paths, in the same order.  A report is the same in both when its
note has not been reported before, under whatever path, and otherwise the real run has
nothing more to do there. -/
theorem dryRun_predicts_inPlace (paths : List Path) :
    let dry := tree.fixPaths .dryRun paths
    let real := tree.fixPaths .inPlace paths
    dry.tree = tree ∧ real.errors = dry.errors ∧
      real.reports.map FileReport.path = dry.reports.map FileReport.path ∧
      ∀ position report, dry.reports[position]? = some report →
        ∃ place, tree.placeOf? report.path = some place ∧
          ((∀ earlier ∈ dry.reports.take position,
              tree.placeOf? earlier.path ≠ some place) →
            real.reports[position]? = some report) ∧
          ((∃ earlier ∈ dry.reports.take position,
              tree.placeOf? earlier.path = some place) →
            real.reports[position]? =
              some { path := report.path, collapsedRuns := 0, removedLines := 0,
                     changed := false }) := by
  have both := tree.runTasks_inPlace [] (tree.tasks paths)
  simp only [tightenedAt_nil, ← fixPaths_eq_runTasks] at both
  obtain ⟨dryTree, -, sameErrors, sameReports⟩ := both
  refine ⟨dryTree, sameErrors, ?_, ?_⟩
  · rw [sameReports, map_path_reportsAfter]
  · intro position report found
    obtain ⟨note, text, -, read, same⟩ :=
      (tree.mem_reports_fixPaths_iff).mp (List.mem_of_getElem? found)
    obtain rfl : note = report.path := congrArg FileReport.path same
    obtain ⟨place, leads, -⟩ := (tree.readNote_eq_ok_iff).mp read
    have later : (tree.fixPaths .inPlace paths).reports[position]? =
        some (tree.reportAfter
          (((tree.fixPaths .dryRun paths).reports.take position).map FileReport.path)
          report) := by
      rw [sameReports, getElem?_reportsAfter, found, Option.map_some, List.nil_append]
    refine ⟨place, leads, ?_, ?_⟩
    · intro fresh
      rw [later, reportAfter, if_neg]
      rintro ⟨_, member, sameNote⟩
      obtain ⟨earlier, before, rfl⟩ := List.mem_map.mp member
      exact fresh earlier before (sameNote.trans leads)
    · rintro ⟨earlier, before, sameNote⟩
      rw [later, reportAfter, if_pos]
      · rfl
      · exact ⟨earlier.path, List.mem_map_of_mem before, sameNote.trans leads.symm⟩

/-- A note that is given twice, the second time through a link: a dry run would fix it
twice, a real run does so once. -/
theorem dryRun_predicts_inPlace_through_link :
    let note : Path := { bytes := [0x61] }
    let link : Path := { bytes := [0x62] }
    let tree :=
      (empty.add [] { bytes := note.bytes, valid := by decide }
        (.file (Text.encode "- x\n\n- y".toList))).add []
          { bytes := link.bytes, valid := by decide } (.link note)
    (tree.fixPaths .dryRun [note, link]).reports[1]? =
        some { path := link, collapsedRuns := 1, removedLines := 1, changed := true } ∧
      (tree.fixPaths .inPlace [note, link]).reports[1]? =
        some { path := link, collapsedRuns := 0, removedLines := 0, changed := false } := by
  intro note link tree
  have dry : (tree.fixPaths .dryRun [note, link]).reports[1]? =
      some { path := link, collapsedRuns := 1, removedLines := 1, changed := true } := by
    decide +kernel
  obtain ⟨place, leads, -, again⟩ :=
    (tree.dryRun_predicts_inPlace [note, link]).2.2.2 1 _ dry
  have before : ∃ earlier ∈ (tree.fixPaths .dryRun [note, link]).reports.take 1,
      tree.placeOf? earlier.path = tree.placeOf? link := by
    decide +kernel
  exact ⟨dry, again (leads ▸ before)⟩

/-! ## Targets -/

/-- A file that a batch is to tighten: one of the paths stands for a note that leads to
it, and it holds a text. -/
structure IsTarget (tree : FileTree) (paths : List Path) (place : Place)
    (text : Text) : Prop where
  reached : ∃ note, tree.Finds paths note ∧ tree.placeOf? note = some place
  holds : tree.textAt? place = some text

/-- The paths of the notes that a batch reports. -/
def reported (tree : FileTree) (paths : List Path) : List Path :=
  (tree.fixPaths .dryRun paths).reports.map FileReport.path

theorem reaches_reported_iff {paths : List Path} {place : Place} {text : Text}
    (holds : tree.textAt? place = some text) :
    tree.Reaches (tree.reported paths) place ↔ tree.IsTarget paths place text := by
  constructor
  · rintro ⟨_, member, leads⟩
    obtain ⟨report, reported, rfl⟩ := List.mem_map.mp member
    obtain ⟨note, _, found, -, rfl⟩ := (tree.mem_reports_fixPaths_iff).mp reported
    exact ⟨⟨note, found, leads⟩, holds⟩
  · rintro ⟨⟨note, found, leads⟩, -⟩
    have read := (tree.readNote_eq_ok_iff).mpr ⟨place, leads, holds⟩
    have reported := (tree.mem_reports_fixPaths_iff).mpr ⟨note, text, found, read, rfl⟩
    exact ⟨note, List.mem_map.mpr ⟨_, reported, rfl⟩, leads⟩

theorem tree_fixPaths_inPlace (paths : List Path) :
    (tree.fixPaths .inPlace paths).tree = tree.tightenedAt (tree.reported paths) :=
  tree.tree_fixPaths .inPlace paths

theorem entryAt?_fixPaths_of_isTarget {paths : List Path} {place : Place} {text : Text}
    (target : tree.IsTarget paths place text) :
    (tree.fixPaths .inPlace paths).tree.entryAt? place =
      some (.file text.tightened.encode) := by
  rw [tree_fixPaths_inPlace]
  apply tree.entryAt?_tightenedAt_of_textAt? target.holds
  exact (tree.reaches_reported_iff target.holds).mpr target

theorem tree_fixPaths_congr {paths others : List Path}
    (same : ∀ place text, tree.IsTarget others place text ↔ tree.IsTarget paths place text) :
    (tree.fixPaths .inPlace others).tree = (tree.fixPaths .inPlace paths).tree := by
  rw [tree_fixPaths_inPlace, tree_fixPaths_inPlace]
  refine tree.tightenedAt_congr ?_
  intro place text holds
  rw [tree.reaches_reported_iff holds, tree.reaches_reported_iff holds]
  exact same place text

theorem isTarget_congr {paths others : List Path}
    (same : ∀ path, path ∈ others ↔ path ∈ paths) (place : Place) (text : Text) :
    tree.IsTarget others place text ↔ tree.IsTarget paths place text := by
  have found (note : Path) : tree.Finds others note ↔ tree.Finds paths note := by
    simp only [Finds, same]
  constructor
  · rintro ⟨⟨note, inOthers, leads⟩, holds⟩
    exact ⟨⟨note, (found note).mp inOthers, leads⟩, holds⟩
  · rintro ⟨⟨note, inPaths, leads⟩, holds⟩
    exact ⟨⟨note, (found note).mpr inPaths, leads⟩, holds⟩

theorem fixPaths_append (mode : WriteMode) (first second : List Path) :
    tree.fixPaths mode (first ++ second) =
      (tree.fixPaths mode first).andThen fun after => after.fixPaths mode second := by
  induction first generalizing tree with
  | nil => rfl
  | cons path first induction =>
      rw [List.cons_append, fixPaths, fixPaths, Batch.andThen_assoc]
      exact Batch.andThen_congr (induction _)

theorem tree_fixPaths_fixPaths (paths : List Path) :
    ((tree.fixPaths .inPlace paths).tree.fixPaths .inPlace paths).tree =
      (tree.fixPaths .inPlace paths).tree := by
  have twice : (tree.fixPaths .inPlace (paths ++ paths)).tree =
      ((tree.fixPaths .inPlace paths).tree.fixPaths .inPlace paths).tree := by
    rw [fixPaths_append, Batch.andThen]
  rw [← twice]
  refine tree.tree_fixPaths_congr (tree.isTarget_congr ?_)
  simp

/-- A batch that writes leaves every target tightened and everything else as it was: the
same places are listed, and what stands at a place that is no target is the same.  So
two batches with the same targets, and above all with the same paths in another order
and number, leave the same tree, and a second run changes nothing. -/
theorem fixPaths_inPlace_tightens_targets (paths : List Path) :
    let after := (tree.fixPaths .inPlace paths).tree
    after.entries.map Prod.fst = tree.entries.map Prod.fst ∧
      after.working = tree.working ∧
      (∀ place text, tree.IsTarget paths place text →
        after.entryAt? place = some (.file text.tightened.encode)) ∧
      (∀ place, (¬∃ text, tree.IsTarget paths place text) →
        after.entryAt? place = tree.entryAt? place) ∧
      (∀ others, (∀ place text,
          tree.IsTarget others place text ↔ tree.IsTarget paths place text) →
        (tree.fixPaths .inPlace others).tree = after) ∧
      (∀ others, (∀ path, path ∈ others ↔ path ∈ paths) →
        (tree.fixPaths .inPlace others).tree = after) ∧
      (after.fixPaths .inPlace paths).tree = after := by
  refine ⟨?_, ?_, ?_, ?_, ?_, ?_, ?_⟩
  · rw [tree_fixPaths_inPlace]
    exact map_fst_map_changeListed _ tree.entries
  · rw [tree_fixPaths_inPlace]
    rfl
  · intro place text target
    exact tree.entryAt?_fixPaths_of_isTarget target
  · intro place noTarget
    rw [tree_fixPaths_inPlace]
    refine tree.entryAt?_tightenedAt_of_not_reaches ?_
    intro text holds reached
    exact noTarget ⟨text, (tree.reaches_reported_iff holds).mp reached⟩
  · intro others same
    exact tree.tree_fixPaths_congr same
  · intro others same
    exact tree.tree_fixPaths_congr (tree.isTarget_congr same)
  · exact tree.tree_fixPaths_fixPaths paths

/-- A note that is reached through a link is tightened where it lies, and the link stays
a link. -/
theorem fixPaths_inPlace_tightens_behind_link :
    let text : Text := "- x\n\n- y".toList
    let note : Name := { bytes := [0x61], valid := by decide }
    let link : Name := { bytes := [0x62], valid := by decide }
    let tree := (empty.add [] note (.file text.encode)).add [] link
      (.link { bytes := note.bytes })
    let after := (tree.fixPaths .inPlace [{ bytes := link.bytes }]).tree
    after.entryAt? [note] = some (.file text.tightened.encode) ∧
      after.entryAt? [link] = some (.link { bytes := note.bytes }) := by
  intro text note link tree after
  obtain ⟨-, -, targets, others, -⟩ :=
    tree.fixPaths_inPlace_tightens_targets [{ bytes := link.bytes }]
  constructor
  · apply targets
    have found : tree.Finds [{ bytes := link.bytes }] { bytes := link.bytes } :=
      ⟨_, List.mem_cons_self, [{ bytes := link.bytes }], by decide +kernel,
        List.mem_cons_self⟩
    exact ⟨⟨_, found, by decide +kernel⟩, by decide +kernel⟩
  · apply others
    rintro ⟨text, -, holds⟩
    cases holds

end FileTree

end TightLists
