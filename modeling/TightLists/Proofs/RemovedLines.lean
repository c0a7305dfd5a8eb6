import Mathlib.Algebra.BigOperators.Group.List.Basic
import Mathlib.Algebra.Ring.Nat
import TightLists.Proofs.SpacingFilter

/-!
# Counting what a pass removes

The statistics of a pass are read off its gaps.  Here they are related to the
lines: what is kept and what the gaps hold add up to the lines of the text, and
no gap is empty.  So a pass that gives the text back reports nothing.
-/

namespace TightLists

theorem Tightening.removedLines_eq_sum (tightening : Tightening) :
    tightening.removedLines = (tightening.gaps.map Gap.blanks).sum := by
  rw [Tightening.removedLines]
  induction tightening.gaps with
  | nil => rfl
  | cons gap gaps induction => simp [induction]

theorem length_blankRun_add_length_pastBlankRun (lines : List Line) :
    (blankRun lines).length + (pastBlankRun lines).length = lines.length := by
  rw [← List.length_append, blankRun_append_pastBlankRun]

/-- Every line is either kept or counted in a gap. -/
theorem length_kept_add_sum_blanks (number : Nat) (lines : List Line) :
    (scanFrom number lines).kept.length +
      ((scanFrom number lines).gaps.map Gap.blanks).sum = lines.length := by
  fun_induction scanFrom number lines with
  | case1 number => rfl
  | case2 number line rest isItem run next below gap induction =>
      have parts : run.length + next.length = rest.length :=
        length_blankRun_add_length_pastBlankRun rest
      have total : below.kept.length + (below.gaps.map Gap.blanks).sum =
          next.length := induction
      simp only [List.length_cons, List.map_cons, List.sum_cons]
      omega
  | case3 number line rest isItem run next below noGap induction =>
      have parts : run.length + next.length = rest.length :=
        length_blankRun_add_length_pastBlankRun rest
      have total : below.kept.length + (below.gaps.map Gap.blanks).sum =
          next.length := induction
      simp only [List.length_cons, List.length_append]
      omega
  | case4 number line rest notItem below induction =>
      have total : below.kept.length + (below.gaps.map Gap.blanks).sum =
          rest.length := induction
      simp only [List.length_cons]
      omega

theorem blanks_pos_of_mem_gaps {number : Nat} {lines : List Line} {gap : Gap}
    (member : gap ∈ (scanFrom number lines).gaps) : 0 < gap.blanks := by
  fun_induction scanFrom number lines with
  | case1 number => cases member
  | case2 number line rest isItem run next below found induction =>
      rcases List.mem_cons.mp member with rfl | later
      · exact found.1
      · exact induction later
  | case3 number line rest isItem run next below noGap induction =>
      exact induction member
  | case4 number line rest notItem below induction =>
      exact induction member

namespace Text

/-- The lines of the result and the lines reported as removed are all the lines
of the text. -/
theorem length_lines_tightened_add_removedLines (text : Text) :
    text.tightened.lines.length + text.tighten.removedLines = text.lines.length := by
  rw [lines_tightened, Tightening.removedLines_eq_sum, ← kept_scanFrom 1]
  exact length_kept_add_sum_blanks 1 text.lines

theorem collapsedRuns_le_removedLines (text : Text) :
    text.tighten.collapsedRuns ≤ text.tighten.removedLines := by
  rw [Tightening.removedLines_eq_sum, Tightening.collapsedRuns,
    ← List.length_map Gap.blanks]
  apply List.length_le_sum_of_one_le
  intro blanks member
  obtain ⟨gap, found, rfl⟩ := List.mem_map.mp member
  exact blanks_pos_of_mem_gaps found

theorem statistics_of_tightened_eq_self {text : Text}
    (unchanged : text.tightened = text) :
    text.tighten.collapsedRuns = 0 ∧ text.tighten.removedLines = 0 := by
  have noLines : text.tighten.removedLines = 0 := by
    have count := length_lines_tightened_add_removedLines text
    rw [unchanged] at count
    omega
  have fewer := collapsedRuns_le_removedLines text
  exact ⟨by omega, noLines⟩

theorem changed_tighten_iff (text : Text) :
    text.tighten.changed = true ↔ text.tightened ≠ text := by
  have count := length_lines_tightened_add_removedLines text
  rw [Tightening.changed, decide_eq_true_iff]
  constructor
  · intro removed same
    rw [same] at count
    omega
  · intro different
    refine Nat.pos_of_ne_zero fun noLines => different ?_
    have kept : text.tightened.lines.Sublist text.lines := by
      rw [lines_tightened]
      exact tightenLines_sublist false text.lines
    have sameLines : text.tightened.lines = text.lines :=
      kept.eq_of_length (by omega)
    rw [← ofLines_lines text.tightened, sameLines, ofLines_lines]

end Text

end TightLists
